import WebSocket.Client.Wire
import WebSocket.Proofs.Session.Stroke

/-!
# Attempts and frames in a history

`signals` keeps of a history the starts of attempts, the openings and the frames that were handed
over. `Orderly` is the order they should have: an attempt hands nothing over before it is open, then
messages, pings and pongs, then at most one close, and nothing after it.
-/

namespace WebSocket

inductive Signal where
  | begun
  | opened
  /-- A frame was handed over, with an opcode if it has an assigned one. -/
  | frame (opcode : Option Opcode)
  deriving DecidableEq, Repr

def Phase.signal? : (before after : Phase) → Option Signal
  | .closed, .connecting => some .begun
  | .opened, .opened => none
  | _, .opened => some .opened
  | _, _ => none

@[simp] theorem Phase.signal?_self (p : Phase) : Phase.signal? p p = none := by
  cases p <;> rfl

/-- An attempt begins only where a closed client starts to connect. -/
theorem Phase.signal?_ne_begun {p q : Phase} (other : p ≠ .closed ∨ q ≠ .connecting) :
    signal? p q ≠ some .begun := by
  cases p <;> cases q <;> first | exact absurd other (by decide) | decide

theorem Phase.signal?_ne_opened {p q : Phase} (other : q ≠ .opened) :
    signal? p q ≠ some .opened := by
  cases p <;> cases q <;> first | exact absurd rfl other | decide

def Moment.signal? : Moment → Option Signal
  | changed before after => Phase.signal? before.phase after.phase
  | asked request => request.frame?.map fun bytes => .frame (Frame.frontOpcode? bytes)
  | called _ | answered .. | returned _ => none

def signals : List Moment → List Signal
  | [] => []
  | moment :: history => signals history ++ moment.signal?.toList

/-- Number of attempts begun. -/
def attempts (h : List Moment) : Nat := (signals h).count .begun

@[simp] theorem signals_called (call : Call) (h : List Moment) :
    signals (.called call :: h) = signals h := List.append_nil _

@[simp] theorem signals_answered (request : Request) (answer : request.Answer)
    (h : List Moment) : signals (.answered request answer :: h) = signals h := List.append_nil _

@[simp] theorem signals_returned (reply : Reply) (h : List Moment) :
    signals (.returned reply :: h) = signals h := List.append_nil _

theorem signals_changed_same {c c' : Client} (same : c'.phase = c.phase) (h : List Moment) :
    signals (.changed c c' :: h) = signals h := by
  simp only [signals, Moment.signal?, same, Phase.signal?_self, Option.toList_none,
    List.append_nil]

theorem signals_asked_other {r : Request} (other : r.frame? = none) (h : List Moment) :
    signals (.asked r :: h) = signals h := by
  simp only [signals, Moment.signal?, other, Option.map_none, Option.toList_none, List.append_nil]

theorem signals_asked_frame {r : Request} {parcel : Parcel} {key : MaskKey}
    (frame : r.frame? = some (parcel.encode key)) (h : List Moment) :
    signals (.asked r :: h) = signals h ++ [.frame (some parcel.opcode)] := by
  simp only [signals, Moment.signal?, frame, Option.map_some, Frame.frontOpcode?_encode,
    Option.toList_some]

/-! ### Order -/

def Opcode.isMessage : Opcode → Bool
  | text | binary | ping | pong => true
  | continuation | close => false

def frames (opcodes : List Opcode) : List Signal := opcodes.map fun op => .frame (some op)

/-- What may follow the start of an attempt. -/
inductive Attempt : List Signal → Prop
  | unopened : Attempt []
  | flowing {messages : List Opcode} (isMessage : ∀ op ∈ messages, op.isMessage) :
    Attempt (.opened :: frames messages)
  | closed {messages : List Opcode} (isMessage : ∀ op ∈ messages, op.isMessage) :
    Attempt (.opened :: frames messages ++ [.frame (some .close)])

/-- Attempts one after another. -/
def joined (attempts : List (List Signal)) : List Signal := (attempts.map (.begun :: ·)).flatten

def Orderly (signals : List Signal) : Prop :=
  ∃ attempts, signals = joined attempts ∧ ∀ attempt ∈ attempts, Attempt attempt

/-- What the last attempt allows. -/
inductive Outlook where
  /-- There was no attempt. -/
  | none
  /-- It may open. -/
  | fresh
  /-- It is open, and frames may follow. -/
  | flowing
  /-- A close was handed over, and nothing may follow. -/
  | ended

/-- Orderly signals, signal by signal. -/
inductive Trace : Outlook → List Signal → Prop
  | none : Trace .none []
  | begun {outlook : Outlook} {l : List Signal} (earlier : Trace outlook l) :
    Trace .fresh (l ++ [.begun])
  | opened {l : List Signal} (earlier : Trace .fresh l) : Trace .flowing (l ++ [.opened])
  | message {l : List Signal} {op : Opcode} (earlier : Trace .flowing l)
    (isMessage : op.isMessage) : Trace .flowing (l ++ [.frame (some op)])
  | close {l : List Signal} (earlier : Trace .flowing l) :
    Trace .ended (l ++ [.frame (some .close)])

def Outlook.fits : Outlook → List Signal → Prop
  | none, l => l = []
  | fresh, l => ∃ earlier, (∀ attempt ∈ earlier, Attempt attempt) ∧ l = joined earlier ++ [.begun]
  | flowing, l => ∃ earlier messages, (∀ attempt ∈ earlier, Attempt attempt) ∧
      (∀ op ∈ messages, op.isMessage) ∧ l = joined earlier ++ .begun :: .opened :: frames messages
  | ended, l => Orderly l

theorem joined_concat (earlier : List (List Signal)) (last : List Signal) :
    joined (earlier ++ [last]) = joined earlier ++ .begun :: last := by
  simp only [joined, List.map_append, List.map_cons, List.map_nil, List.flatten_append,
    List.flatten_cons, List.flatten_nil, List.append_nil]

theorem orderly_concat {earlier : List (List Signal)} {last : List Signal}
    (sound : ∀ attempt ∈ earlier, Attempt attempt) (attempt : Attempt last) :
    Orderly (joined earlier ++ .begun :: last) := by
  refine ⟨earlier ++ [last], (joined_concat earlier last).symm, ?_⟩
  intro a isIn
  rcases List.mem_append.mp isIn with isEarlier | isLast
  · exact sound a isEarlier
  · rw [List.mem_singleton.mp isLast]
    exact attempt

theorem orderly_of_fits {outlook : Outlook} {l : List Signal} (fits : outlook.fits l) :
    Orderly l := by
  cases outlook with
  | none =>
    cases fits
    exact ⟨[], rfl, by simp⟩
  | fresh =>
    obtain ⟨earlier, sound, rfl⟩ := fits
    exact orderly_concat sound .unopened
  | flowing =>
    obtain ⟨earlier, messages, sound, isMessage, rfl⟩ := fits
    exact orderly_concat sound (.flowing isMessage)
  | ended => exact fits

theorem Trace.fits {outlook : Outlook} {l : List Signal} (trace : Trace outlook l) :
    outlook.fits l := by
  induction trace with
  | none => rfl
  | @begun outlook l earlier ih =>
    obtain ⟨attempts, rfl, sound⟩ := orderly_of_fits ih
    exact ⟨attempts, sound, rfl⟩
  | @opened l earlier ih =>
    obtain ⟨attempts, sound, rfl⟩ := ih
    exact ⟨attempts, [], sound, by simp, by simp [frames]⟩
  | @message l op earlier isMessage ih =>
    obtain ⟨attempts, messages, sound, areMessages, rfl⟩ := ih
    refine ⟨attempts, messages ++ [op], sound, ?_, by simp [frames]⟩
    intro other isIn
    rcases List.mem_append.mp isIn with isEarlier | isLast
    · exact areMessages other isEarlier
    · rw [List.mem_singleton.mp isLast]
      exact isMessage
  | @close l earlier ih =>
    obtain ⟨attempts, messages, sound, areMessages, rfl⟩ := ih
    have whole := orderly_concat sound (.closed areMessages)
    show Orderly _
    simpa only [List.append_assoc, List.cons_append] using whole

theorem Trace.orderly {outlook : Outlook} {l : List Signal} (trace : Trace outlook l) :
    Orderly l := orderly_of_fits trace.fits

end WebSocket
