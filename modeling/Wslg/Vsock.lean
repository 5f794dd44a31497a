import Mathlib.Data.List.Basic
import Mathlib.Tactic.Common
/-!
# The vsock of the RDP connection

`main.cpp` of WSLGd binds a socket to the first port of the reserved range that is
not in use. What the system calls answer is given. If every port is in use, the
check behind the loop looks for a port that the loop never leaves in the address.
-/

namespace Wslg.Wslgd

abbrev errno_t := Nat

def EINVAL : errno_t := 22
def EADDRINUSE : errno_t := 98

def MAX_RESERVED_PORT : Nat := 1024

def AF_VSOCK : Nat := 40
def VMADDR_CID_ANY : Nat := 0xFFFFFFFF

structure sockaddr_vm where
  svm_family : Nat
  svm_port : Nat
  svm_cid : Nat
  deriving DecidableEq

/-- What the calls answer: on failure an `errno`, on success a descriptor or nothing. -/
structure SocketCalls where
  socket : Except errno_t Nat
  bind : (port : Nat) → Except errno_t Unit

/-- `socketFd` and `address` of `main`, and the port the socket is bound to. -/
structure Vsock where
  socketFd : Nat
  address : sockaddr_vm
  bound : Option Nat
  deriving DecidableEq

/-- `address.svm_port = port` -/
def Vsock.setPort (s : Vsock) (port : Nat) : Vsock := { s with address := { s.address with svm_port := port } }

@[simp] theorem Vsock.setPort_svm_port (s : Vsock) (port : Nat) : (s.setPort port).address.svm_port = port := rfl

/-- The loop over the ports; an error is an exception. -/
def bindFirst (bind : Nat → Except errno_t Unit) : List Nat → Vsock → Except errno_t Vsock
  | [], s => .ok s
  | port :: ports, s =>
    let s := s.setPort port
    match bind port with
    | .ok () => .ok { s with bound := some port }
    | .error errno => if errno ≠ EADDRINUSE then .error errno else bindFirst bind ports s

/-- `main` from the socket to the check behind the loop. -/
def bindVsock (os : SocketCalls) (maxReservedPort : Nat) : Except errno_t Vsock := do
  let socketFd ← os.socket
  let s ← bindFirst os.bind (List.range' 1 (maxReservedPort - 1)) ⟨socketFd, ⟨AF_VSOCK, 0, VMADDR_CID_ANY⟩, none⟩
  if s.address.svm_port = maxReservedPort then .error EINVAL else .ok s

/-! ## How the loop ends -/

/-- A port was free, one failed otherwise, or all were in use. -/
inductive Search (bind : Nat → Except errno_t Unit) (ports : List Nat) (s : Vsock) (r : Except errno_t Vsock) : Prop
  | bound (used : List Nat) (port : Nat) (rest : List Nat) (hports : ports = used ++ port :: rest)
      (hused : ∀ p ∈ used, bind p = .error EADDRINUSE) (hbind : bind port = .ok ())
      (hr : r = .ok { s.setPort port with bound := some port })
  | failed (port : Nat) (errno : errno_t) (hport : port ∈ ports) (hne : errno ≠ EADDRINUSE)
      (hbind : bind port = .error errno) (hr : r = .error errno)
  | exhausted (hused : ∀ p ∈ ports, bind p = .error EADDRINUSE)
      (hr : r = .ok (s.setPort (ports.getLast?.getD s.address.svm_port)))

theorem bindFirst_search (bind : Nat → Except errno_t Unit) (ports : List Nat) (s : Vsock) :
    Search bind ports s (bindFirst bind ports s) := by
  induction ports generalizing s with
  | nil => exact .exhausted (by simp) rfl
  | cons port ports ih =>
    unfold bindFirst
    cases hbind : bind port with
    | ok => exact .bound [] port ports rfl (by simp) hbind rfl
    | error errno =>
      by_cases herrno : errno = EADDRINUSE
      -- in use: the rest is searched with this port in the address
      · subst herrno
        simp only [ne_eq, not_true_eq_false, if_false]
        cases ih (s.setPort port) with
        | bound used port' rest hports hused hfree hr =>
          exact .bound (port :: used) port' rest (by rw [hports]; rfl) (List.forall_mem_cons.2 ⟨hbind, hused⟩) hfree hr
        | failed port' errno hport hne hfailed hr =>
          exact .failed port' errno (List.mem_cons_of_mem _ hport) hne hfailed hr
        | exhausted hused hr =>
          refine .exhausted (List.forall_mem_cons.2 ⟨hbind, hused⟩) ?_
          rw [hr, List.getLast?_cons, Option.getD_some]
          rfl
      · simp only [ne_eq, herrno, not_false_eq_true, if_true]
        exact .failed port errno List.mem_cons_self herrno hbind rfl

/-! ## Past the check -/

/-- The first port of the range that is not in use, and `bind` takes it. -/
structure FirstFree (bind : Nat → Except errno_t Unit) (maxReservedPort port : Nat) : Prop where
  pos : 1 ≤ port
  lt : port < maxReservedPort
  free : bind port = .ok ()
  used : ∀ p, 1 ≤ p → p < port → bind p = .error EADDRINUSE

/-- `main` goes on with the socket bound to the first free port, and throws if there is none. -/
structure EndsBoundOrThrows (bind : Nat → Except errno_t Unit) (maxReservedPort : Nat) (r : Except errno_t Vsock) :
    Prop where
  goesOn : ∀ s, r = .ok s → s.bound = some s.address.svm_port ∧ FirstFree bind maxReservedPort s.address.svm_port
  throws : (∀ port, ¬ FirstFree bind maxReservedPort port) → ∃ errno, r = .error errno

theorem endsBoundOrThrows_error (bind : Nat → Except errno_t Unit) (maxReservedPort : Nat) (errno : errno_t) :
    EndsBoundOrThrows bind maxReservedPort (.error errno) :=
  ⟨fun _ h => (by cases h), fun _ => ⟨errno, rfl⟩⟩

theorem mem_ports {maxReservedPort port : Nat} :
    port ∈ List.range' 1 (maxReservedPort - 1) ↔ 1 ≤ port ∧ port < maxReservedPort := by
  rw [List.mem_range'_1]
  omega

/-- What was tried before a port is all that is below it. -/
theorem firstFree_of_split {bind : Nat → Except errno_t Unit} {maxReservedPort port : Nat} {used rest : List Nat}
    (hports : List.range' 1 (maxReservedPort - 1) = used ++ port :: rest)
    (hused : ∀ p ∈ used, bind p = .error EADDRINUSE) (hbind : bind port = .ok ()) :
    FirstFree bind maxReservedPort port := by
  have hmem : port ∈ List.range' 1 (maxReservedPort - 1) := by
    rw [hports]
    exact List.mem_append_right _ List.mem_cons_self
  obtain ⟨k, hk, rfl, hrest⟩ := List.range'_eq_append_iff.1 hports
  obtain ⟨hport, -⟩ := List.range'_eq_cons_iff.1 hrest.symm
  refine ⟨(mem_ports.1 hmem).1, (mem_ports.1 hmem).2, hbind, fun p hpos hlt => hused p ?_⟩
  rw [List.mem_range'_1]
  omega

/-- The socket once the loop has run out of ports: the address is left with the last one. -/
theorem bindVsock_exhausted {os : SocketCalls} {maxReservedPort fd : Nat} (hmax : 1 < maxReservedPort)
    (hsocket : os.socket = .ok fd) (hused : ∀ p, 1 ≤ p → p < maxReservedPort → os.bind p = .error EADDRINUSE) :
    bindVsock os maxReservedPort = .ok ⟨fd, ⟨AF_VSOCK, maxReservedPort - 1, VMADDR_CID_ANY⟩, none⟩ := by
  have hlast : (List.range' 1 (maxReservedPort - 1)).getLast? = some (maxReservedPort - 1) := by
    rw [List.getLast?_range', if_neg (by omega)]
    congr 1
    omega
  unfold bindVsock
  rw [hsocket]
  simp only [bind, Except.bind]
  cases bindFirst_search os.bind (List.range' 1 (maxReservedPort - 1)) ⟨fd, ⟨AF_VSOCK, 0, VMADDR_CID_ANY⟩, none⟩ with
  | bound used' port rest hports hused' hbind _ =>
    have hfree := firstFree_of_split hports hused' hbind
    rw [hused port hfree.pos hfree.lt] at hbind
    cases hbind
  | failed port errno hport hne hbind _ =>
    rw [hused port (mem_ports.1 hport).1 (mem_ports.1 hport).2] at hbind
    exact absurd (Except.error.inj hbind).symm hne
  | exhausted _ hr =>
    rw [hr, hlast]
    dsimp only [Vsock.setPort, Option.getD_some]
    rw [if_neg (by omega)]

/-- The search does as it should exactly if not every port of the range is in use. -/
theorem port_search_ends_iff {os : SocketCalls} {maxReservedPort : Nat} (hmax : 1 < maxReservedPort) :
    EndsBoundOrThrows os.bind maxReservedPort (bindVsock os maxReservedPort) ↔
      ∀ fd, os.socket = .ok fd → ∃ port, 1 ≤ port ∧ port < maxReservedPort ∧ os.bind port ≠ .error EADDRINUSE := by
  constructor
  · intro h fd hsocket
    by_contra hnone
    push Not at hnone
    -- past the check, and bound to nothing
    have hbound := (h.goesOn _ (bindVsock_exhausted hmax hsocket hnone)).1
    cases hbound
  · intro hfree
    unfold bindVsock
    cases hsocket : os.socket with
    | error errno => exact endsBoundOrThrows_error ..
    | ok fd =>
      obtain ⟨port, hpos, hlt, hport⟩ := hfree fd hsocket
      simp only [bind, Except.bind]
      cases bindFirst_search os.bind (List.range' 1 (maxReservedPort - 1)) ⟨fd, ⟨AF_VSOCK, 0, VMADDR_CID_ANY⟩, none⟩ with
      | bound used port' rest hports hused hbind hr =>
        have hfirst := firstFree_of_split hports hused hbind
        rw [hr]
        dsimp only
        rw [Vsock.setPort_svm_port, if_neg (Nat.ne_of_lt hfirst.lt)]
        refine ⟨fun s hs => ?_, fun hno => absurd hfirst (hno port')⟩
        rw [← Except.ok.inj hs]
        exact ⟨rfl, hfirst⟩
      | failed port' errno _ _ _ hr =>
        rw [hr]
        exact endsBoundOrThrows_error ..
      | exhausted hused _ => exact absurd (hused port (mem_ports.2 ⟨hpos, hlt⟩)) hport

/-- The first port is in use, and the second one free. -/
def secondIsFree : SocketCalls := ⟨.ok 3, fun port => if port = 1 then .error EADDRINUSE else .ok ()⟩

theorem second_port_is_bound : bindVsock secondIsFree MAX_RESERVED_PORT = .ok ⟨3, ⟨AF_VSOCK, 2, VMADDR_CID_ANY⟩, some 2⟩ ∧
    EndsBoundOrThrows secondIsFree.bind MAX_RESERVED_PORT (bindVsock secondIsFree MAX_RESERVED_PORT) := by
  refine ⟨rfl, (port_search_ends_iff (by decide)).2 fun fd _ => ⟨2, by decide, by decide, ?_⟩⟩
  intro h
  cases h

def allInUse : SocketCalls := ⟨.ok 3, fun _ => .error EADDRINUSE⟩

/-- With every port in use `main` goes on with a socket that is not bound. -/
theorem exhausted_search_goes_on :
    bindVsock allInUse MAX_RESERVED_PORT = .ok ⟨3, ⟨AF_VSOCK, 1023, VMADDR_CID_ANY⟩, none⟩ ∧
      ¬ EndsBoundOrThrows allInUse.bind MAX_RESERVED_PORT (bindVsock allInUse MAX_RESERVED_PORT) := by
  have hr : bindVsock allInUse MAX_RESERVED_PORT = .ok ⟨3, ⟨AF_VSOCK, 1023, VMADDR_CID_ANY⟩, none⟩ :=
    bindVsock_exhausted (by decide) rfl fun _ _ _ => rfl
  refine ⟨hr, fun h => ?_⟩
  cases (h.goesOn _ hr).1

end Wslg.Wslgd
