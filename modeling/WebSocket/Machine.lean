import WebSocket.Bytes
import WebSocket.Error

/-!
# Computing with words and buffers

A machine counts in words of 64 bits and reaches into a buffer by position. Some things it cannot
do: a sum that no word holds, a difference below zero, a byte at a position that the buffer does not
have. Such a `Trap` ends a computation without an answer, and so differs from an error, with which
bytes are refused.
-/

namespace WebSocket

/-- Why a computation ends without an answer. -/
inductive Trap where
  /-- A position, or a range, that the buffer does not have. -/
  | outOfRange
  | belowZero
  /-- A sum that no word holds. -/
  | overflow
  /-- A loop that has used up the passes it was given. -/
  | unfinished
  deriving DecidableEq, Repr

/-- Computations that end in an answer, an error or a trap. -/
abbrev Machine := ExceptT Error (Except Trap)

namespace Machine

variable {α β : Type}

/-- Comes to an answer or to an error, without a trap. -/
def settle (answer : Except Error α) : Machine α := ExceptT.mk (.ok answer)

/-- Goes on after an error, too. -/
def outcome (x : Machine α) : Machine (Except Error α) := ExceptT.lift x.run

/-! ### Words -/

/-- A number as a word, if a word holds it. -/
def word? (n : Nat) : Option Nat := if n < 1 <<< 64 then some n else none

def add (a b : Nat) : Except Trap Nat :=
  match word? (a + b) with
  | some sum => .ok sum
  | none => .error .overflow

def sub (a b : Nat) : Except Trap Nat := if b ≤ a then .ok (a - b) else .error .belowZero

/-! ### Buffers -/

def byteAt (bytes : Bytes) (position : Nat) : Except Trap UInt8 :=
  match bytes[position]? with
  | some b => .ok b
  | none => .error .outOfRange

/-- The bytes from one position up to another, if there are so many. -/
def range? (bytes : Bytes) (start stop : Nat) : Option Bytes :=
  if start ≤ stop ∧ stop ≤ bytes.length then some ((bytes.drop start).take (stop - start))
  else none

def range (bytes : Bytes) (start stop : Nat) : Except Trap Bytes :=
  match range? bytes start stop with
  | some part => .ok part
  | none => .error .outOfRange

/-- Takes bytes off the front. -/
def advance (bytes : Bytes) (count : Nat) : Except Trap Bytes :=
  if count ≤ bytes.length then .ok (bytes.drop count) else .error .outOfRange

/-! ### Computations without a trap -/

@[simp] theorem ok_bind (a : α) (f : α → Except Trap β) : (Except.ok a >>= f) = f a := rfl

@[simp] theorem liftM_ok (a : α) : (liftM (Except.ok a : Except Trap α) : Machine α) = pure a := rfl

@[simp] theorem settle_ok (a : α) : settle (.ok a) = pure a := rfl

@[simp] theorem settle_error (e : Error) : (settle (.error e) : Machine α) = throw e := rfl

@[simp] theorem throw_bind (e : Error) (f : α → Machine β) : throw e >>= f = throw e := rfl

@[simp] theorem run_settle (answer : Except Error α) : (settle answer).run = .ok answer := rfl

@[simp] theorem outcome_settle (answer : Except Error α) : outcome (settle answer) = pure answer :=
  rfl

theorem word?_of_lt {n : Nat} (small : n < 1 <<< 64) : word? n = some n := if_pos small

theorem add_of_lt {a b : Nat} (small : a + b < 1 <<< 64) : add a b = .ok (a + b) := by
  rw [add, word?_of_lt small]

theorem sub_of_le {a b : Nat} (enough : b ≤ a) : sub a b = .ok (a - b) := if_pos enough

@[simp] theorem byteAt_cons_zero (b : UInt8) (rest : Bytes) : byteAt (b :: rest) 0 = .ok b := rfl

@[simp] theorem byteAt_cons_succ (b : UInt8) (rest : Bytes) (position : Nat) :
    byteAt (b :: rest) (position + 1) = byteAt rest position := rfl

theorem byteAt_add (bytes : Bytes) (start position : Nat) :
    byteAt bytes (start + position) = byteAt (bytes.drop start) position := by
  rw [byteAt, byteAt, List.getElem?_drop]

theorem range?_of_le {bytes : Bytes} {start stop : Nat} (ordered : start ≤ stop)
    (enough : stop ≤ bytes.length) :
    range? bytes start stop = some ((bytes.drop start).take (stop - start)) :=
  if_pos ⟨ordered, enough⟩

theorem range_of_le {bytes : Bytes} {start stop : Nat} (ordered : start ≤ stop)
    (enough : stop ≤ bytes.length) :
    range bytes start stop = .ok ((bytes.drop start).take (stop - start)) := by
  rw [range, range?_of_le ordered enough]

theorem advance_of_le {bytes : Bytes} {count : Nat} (enough : count ≤ bytes.length) :
    advance bytes count = .ok (bytes.drop count) := if_pos enough

end Machine

end WebSocket
