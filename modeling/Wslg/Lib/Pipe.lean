import Mathlib.Data.List.Basic
import Mathlib.Tactic.Common
/-!
# Pipes

A pipe carries messages in order. The far end takes any number of them at once;
what it makes of them one by one is a fold over what was delivered.
-/

namespace Lib

structure Pipe (M : Type) where
  delivered : List M
  underWay : List M

namespace Pipe

variable {M S : Type} (q : Pipe M)

def empty : Pipe M := ⟨[], []⟩

def sent : List M := q.delivered ++ q.underWay

def push (ms : List M) : Pipe M := ⟨q.delivered, q.underWay ++ ms⟩

/-- The next `n` messages arrive. -/
def take (n : Nat) : Pipe M := ⟨q.delivered ++ q.underWay.take n, q.underWay.drop n⟩

@[simp] theorem sent_empty : (empty : Pipe M).sent = [] := rfl

@[simp] theorem sent_push (ms : List M) : (q.push ms).sent = q.sent ++ ms := by
  simp [sent, push]

@[simp] theorem delivered_push (ms : List M) : (q.push ms).delivered = q.delivered := rfl

/-- Delivery neither adds nor loses anything. -/
@[simp] theorem sent_take (n : Nat) : (q.take n).sent = q.sent := by
  simp [sent, take]

@[simp] theorem delivered_take (n : Nat) : (q.take n).delivered = q.delivered ++ q.underWay.take n := rfl

theorem mem_sent_of_delivered {m : M} (h : m ∈ q.delivered) : m ∈ q.sent := List.mem_append_left _ h

theorem mem_sent_of_underWay {m : M} (h : m ∈ q.underWay) : m ∈ q.sent := List.mem_append_right _ h

theorem mem_tail_delivered {m : M} (h : m ∈ q.delivered.tail) : m ∈ q.sent.tail := by
  rw [sent, List.tail_append_of_ne_nil fun hnil => by simp [hnil] at h]
  exact List.mem_append_left _ h

/-- If nothing is under way, everything was delivered. -/
theorem delivered_of_idle (h : q.underWay = []) : q.delivered = q.sent := by
  rw [sent, h, List.append_nil]

end Pipe

end Lib
