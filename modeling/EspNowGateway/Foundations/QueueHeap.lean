import Mathlib.Data.List.Basic

/-! Bounded first-in first-out queues in a heap of queues. A queue is reached through the
handle its creation returned; there is no operation that destroys one. -/
namespace QueueHeap

abbrev Handle := Nat

structure Heap (φ : Type) where
  queues : List (List φ)
  deriving DecidableEq

variable {φ : Type}

def empty : Heap φ := ⟨[]⟩

def contents (m : Heap φ) (h : Handle) : Option (List φ) := m.queues[h]?

def update (m : Heap φ) (h : Handle) (q : List φ) : Heap φ := ⟨m.queues.set h q⟩

def create (m : Heap φ) : Handle × Heap φ := (m.queues.length, ⟨m.queues ++ [[]]⟩)

/-- Append, or refuse when the queue holds `cap` items; `none` when `h` is no queue. -/
def send (cap : Nat) (m : Heap φ) (h : Handle) (x : φ) : Option (Bool × Heap φ) :=
  match contents m h with
  | none => none
  | some q => if q.length < cap then some (true, update m h (q ++ [x])) else some (false, m)

/-- Take the oldest item, if there is one; `none` when `h` is no queue. -/
def receive (m : Heap φ) (h : Handle) : Option (Option φ × Heap φ) :=
  match contents m h with
  | none => none
  | some [] => some (none, m)
  | some (x :: q) => some (some x, update m h q)

@[simp] theorem contents_update_self {m : Heap φ} {h : Handle} {p q : List φ}
    (hm : contents m h = some p) : contents (update m h q) h = some q := by
  have hlt : h < m.queues.length := (List.getElem?_eq_some_iff.mp hm).1
  rw [contents, update, List.getElem?_set_self hlt]

@[simp] theorem contents_create_self (m : Heap φ) :
    contents (create m).2 (create m).1 = some [] := by
  simp [contents, create]

theorem send_room {cap : Nat} {m : Heap φ} {h : Handle} {q : List φ} {x : φ}
    (hm : contents m h = some q) (hq : q.length < cap) :
    send cap m h x = some (true, update m h (q ++ [x])) := by
  simp only [send, hm, if_pos hq]

theorem send_full {cap : Nat} {m : Heap φ} {h : Handle} {q : List φ} {x : φ}
    (hm : contents m h = some q) (hq : cap ≤ q.length) : send cap m h x = some (false, m) := by
  simp only [send, hm, if_neg (Nat.not_lt_of_le hq)]

theorem receive_nil {m : Heap φ} {h : Handle} (hm : contents m h = some []) :
    receive m h = some (none, m) := by simp only [receive, hm]

theorem receive_cons {m : Heap φ} {h : Handle} {x : φ} {q : List φ}
    (hm : contents m h = some (x :: q)) : receive m h = some (some x, update m h q) := by
  simp only [receive, hm]

/-- Finding nothing changes nothing. -/
theorem receive_none {m m' : Heap φ} {h : Handle} (hm : receive m h = some (none, m')) : m' = m := by
  rw [receive] at hm
  split at hm
  · cases hm
  · exact (Prod.mk.inj (Option.some.inj hm)).2.symm
  · cases hm

/-- Refusing changes nothing. -/
theorem send_refused {cap : Nat} {m m' : Heap φ} {h : Handle} {x : φ}
    (hm : send cap m h x = some (false, m')) : m' = m := by
  rw [send] at hm
  split at hm
  · cases hm
  · split at hm
    · cases hm
    · exact (Prod.mk.inj (Option.some.inj hm)).2.symm

end QueueHeap
