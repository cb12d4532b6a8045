import WebSocket.Proofs.Session.Inflow
import WebSocket.Proofs.Session.Underway

/-!
# The ledger of messages

A history tells which messages were dispatched and to whom (`dispatches`), and which were taken out
of the mailbox (`taken`). `Balanced` sets this against the messages that the attempts completed and
against what waits in the mailbox, up to some messages that are still to be dispatched. Moments that
dispatch and take nothing leave the balance as it is (`Silent`).
-/

namespace WebSocket

/-! ### Entries -/

/-- A message that is given to a receiver, or else put into the mailbox. -/
structure Dispatch where
  receiver : Option String
  message : Message
  deriving DecidableEq

/-- The messages that a moment gives to a receiver, or by which it makes the mailbox longer. -/
def Moment.dispatches : Moment → List Dispatch
  | asked (.deliver receiver message) => [⟨some receiver, message⟩]
  | changed before after =>
    (after.mailbox.messages.drop before.mailbox.messages.length).map fun message => ⟨none, message⟩
  | _ => []

def dispatches : List Moment → List Dispatch
  | [] => []
  | moment :: h => dispatches h ++ moment.dispatches

/-- The messages that were given to a receiver, or that were put into the mailbox. -/
def given (receiver : Option String) (h : List Moment) : List Message :=
  ((dispatches h).filter fun dispatch => dispatch.receiver = receiver).map Dispatch.message

def Reply.message? : Reply → Option Message
  | message answer => answer
  | none | flag _ | outcome _ | count _ => .none

/-- The messages that were taken out of the mailbox. -/
def taken : List Moment → List Message
  | [] => []
  | .returned reply :: h => taken h ++ reply.message?.toList
  | _ :: h => taken h

/-- Who was chosen last to be given messages. -/
def chosen : List Moment → Option String
  | [] => none
  | .called (.deliverTo receiver) :: _ => receiver
  | _ :: h => chosen h

/-- Whatever was dispatched went to whom was chosen last. -/
def Routed : List Moment → Prop
  | [] => True
  | moment :: h => (∀ dispatch ∈ moment.dispatches, dispatch.receiver = chosen h) ∧ Routed h

def delivering (h : List Moment) : Bool := (underWay h).any Call.isDelivery

/-- Deliveries were made one at a time, as a transport is expected to make them. -/
def isSerial : List Moment → Bool
  | [] => true
  | .called call :: h => !(call.isDelivery && delivering h) && isSerial h
  | _ :: h => isSerial h

/-! ### Balance -/

/-- All that was decoded was dispatched, up to a rest; and what was put into the mailbox was taken
out of it or waits there. -/
structure Balanced (config : Config) (rest : List Message) (c : Client) (h : List Moment) :
    Prop where
  decoded : decoded config h = (dispatches h).map Dispatch.message ++ rest
  stored : taken h ++ c.mailbox.messages = given none h
  routed : Routed h
  receiver : c.receiver = chosen h

/-- What follows is neither a dispatch nor a choice, and takes no message. -/
structure Silent (h h' : List Moment) : Prop where
  dispatches : dispatches h' = dispatches h
  taken : taken h' = taken h
  chosen : chosen h' = chosen h
  routed : Routed h → Routed h'
  serial : isSerial h' = isSerial h

variable {config : Config} {rest : List Message} {c c' : Client} {h h' : List Moment}

theorem dispatches_cons {moment : Moment} (none : moment.dispatches = []) (h : List Moment) :
    dispatches (moment :: h) = dispatches h := by
  rw [dispatches, none, List.append_nil]

theorem Routed.cons {moment : Moment} (routed : Routed h) (none : moment.dispatches = []) :
    Routed (moment :: h) :=
  ⟨fun _ isIn => absurd (none ▸ isIn) List.not_mem_nil, routed⟩

theorem silent_asked {r : Request} (other : r.isDelivery = false) (h : List Moment) :
    Silent h (.asked r :: h) := by
  have none : (Moment.asked r).dispatches = [] := by cases r <;> first | rfl | cases other
  exact ⟨dispatches_cons none h, rfl, rfl, fun routed => routed.cons none, rfl⟩

theorem silent_answered (r : Request) (answer : r.Answer) (h : List Moment) :
    Silent h (.answered r answer :: h) :=
  ⟨dispatches_cons rfl h, rfl, rfl, fun routed => routed.cons rfl, rfl⟩

theorem Moment.dispatches_changed
    (shorter : c'.mailbox.messages.length ≤ c.mailbox.messages.length) :
    (changed c c').dispatches = [] := by
  rw [dispatches, List.drop_eq_nil_of_le shorter, List.map_nil]

theorem silent_changed (shorter : c'.mailbox.messages.length ≤ c.mailbox.messages.length)
    (h : List Moment) : Silent h (.changed c c' :: h) := by
  have none := Moment.dispatches_changed shorter
  exact ⟨dispatches_cons none h, rfl, rfl, fun routed => routed.cons none, rfl⟩

theorem delivering_called {call : Call} (read : call.isDelivery = false) (h : List Moment) :
    delivering (.called call :: h) = delivering h := by
  rw [delivering, underWay, List.any_cons, read, Bool.false_or, delivering]

theorem isSerial_called {call : Call} (read : call.isDelivery = false) (h : List Moment) :
    isSerial (.called call :: h) = isSerial h := by
  rw [isSerial, read, Bool.false_and, Bool.not_false, Bool.true_and]

theorem silent_called {call : Call} (read : call.isDelivery = false)
    (other : ∀ receiver, call ≠ .deliverTo receiver) (h : List Moment) :
    Silent h (.called call :: h) := by
  have same : chosen (.called call :: h) = chosen h := by
    cases call <;> first | rfl | exact absurd rfl (other _)
  exact ⟨dispatches_cons rfl h, rfl, same, fun routed => routed.cons rfl, isSerial_called read h⟩

theorem silent_returned {reply : Reply} (empty : reply.message? = none) (h : List Moment) :
    Silent h (.returned reply :: h) := by
  have none : taken (.returned reply :: h) = taken h := by
    rw [taken, empty, Option.toList_none, List.append_nil]
  exact ⟨dispatches_cons rfl h, none, rfl, fun routed => routed.cons rfl, rfl⟩

/-- Where nothing is dispatched, what is read is added to the rest, and messages may only go from
the mailbox to whom takes them. -/
theorem Balanced.read {more : List Message} (balanced : Balanced config rest c h)
    (dispatched : dispatches h' = dispatches h) (routed : Routed h')
    (moved : taken h' ++ c'.mailbox.messages = taken h ++ c.mailbox.messages)
    (receiver : c'.receiver = chosen h')
    (reads : WebSocket.decoded config h' = WebSocket.decoded config h ++ more) :
    Balanced config (rest ++ more) c' h' := by
  refine ⟨?_, ?_, routed, receiver⟩
  · rw [reads, dispatched, balanced.decoded, List.append_assoc]
  · rw [moved, balanced.stored, given, given, dispatched]

theorem Balanced.pass (balanced : Balanced config rest c h)
    (dispatched : dispatches h' = dispatches h) (routed : Routed h')
    (moved : taken h' ++ c'.mailbox.messages = taken h ++ c.mailbox.messages)
    (receiver : c'.receiver = chosen h')
    (same : WebSocket.decoded config h' = WebSocket.decoded config h) :
    Balanced config rest c' h' := by
  have reads : WebSocket.decoded config h' = WebSocket.decoded config h ++ [] := by
    rw [same, List.append_nil]
  rw [← List.append_nil rest]
  exact balanced.read dispatched routed moved receiver reads

theorem Balanced.silent (balanced : Balanced config rest c h) (silent : Silent h h')
    (same : WebSocket.decoded config h' = WebSocket.decoded config h)
    (waits : c'.mailbox.messages = c.mailbox.messages) (receiver : c'.receiver = c.receiver) :
    Balanced config rest c' h' := by
  have chosen : c'.receiver = WebSocket.chosen h' := by
    rw [receiver, balanced.receiver, silent.chosen]
  refine balanced.pass silent.dispatches (silent.routed balanced.routed) ?_ chosen same
  rw [silent.taken, waits]

theorem Client.dequeue_messages (c : Client) :
    c.dequeue.1.toList ++ c.dequeue.2.mailbox.messages = c.mailbox.messages := by
  cases waits : c.mailbox.messages <;> simp [dequeue, Mailbox.pop, waits]

theorem Client.length_dequeue (c : Client) :
    c.dequeue.2.mailbox.messages.length ≤ c.mailbox.messages.length := by
  rw [← c.dequeue_messages, List.length_append]
  exact Nat.le_add_left _ _

/-- A message that is taken out of the mailbox is the first that waits. -/
theorem Balanced.dequeue (balanced : Balanced config rest c h)
    (same : WebSocket.decoded config (.changed c c.dequeue.2 :: h) = WebSocket.decoded config h) :
    Balanced config rest c.dequeue.2
      (.returned (.message c.dequeue.1) :: .changed c c.dequeue.2 :: h) := by
  have none : (Moment.changed c c.dequeue.2).dispatches = [] :=
    Moment.dispatches_changed c.length_dequeue
  refine balanced.pass ?_ ((balanced.routed.cons none).cons rfl) ?_ balanced.receiver
    ((decoded_idle rfl _).trans same)
  · rw [dispatches_cons rfl, dispatches_cons none]
  · rw [← c.dequeue_messages, ← List.append_assoc]
    rfl

theorem Balanced.choose (balanced : Balanced config rest c h) (receiver : Option String)
    (same : WebSocket.decoded config (.changed c { c with receiver } ::
      .called (.deliverTo receiver) :: h) = WebSocket.decoded config h) :
    Balanced config rest { c with receiver }
      (.changed c { c with receiver } :: .called (.deliverTo receiver) :: h) := by
  have none : (Moment.changed c { c with receiver }).dispatches = [] :=
    Moment.dispatches_changed (Nat.le_refl _)
  refine balanced.pass ?_ ((balanced.routed.cons rfl).cons none) rfl rfl same
  rw [dispatches_cons none, dispatches_cons rfl]

theorem Balanced.delivery (balanced : Balanced config [] c h) (data : Bytes)
    {messages : List Message}
    (reads : WebSocket.decoded config (.changed c (c.absorb data).2 ::
      .called (.bytesArrived data) :: h) = WebSocket.decoded config h ++ messages) :
    Balanced config messages (c.absorb data).2
      (.changed c (c.absorb data).2 :: .called (.bytesArrived data) :: h) := by
  have unread : (c.absorb data).2.mailbox = c.mailbox := by rw [Client.absorb_eq]
  have none : (Moment.changed c (c.absorb data).2).dispatches = [] :=
    Moment.dispatches_changed (Nat.le_of_eq (by rw [unread]))
  have receiver : (c.absorb data).2.receiver = chosen h := by
    rw [Client.absorb_eq]
    exact balanced.receiver
  refine balanced.read ?_ ((balanced.routed.cons rfl).cons none) ?_ receiver reads
  · rw [dispatches_cons none, dispatches_cons rfl]
  · rw [unread]
    rfl

/-- What is dispatched next is no longer in the rest. -/
theorem Balanced.dispatch {message : Message} {moment : Moment}
    (balanced : Balanced config (message :: rest) c h)
    (dispatched : moment.dispatches = [⟨c.receiver, message⟩])
    (same : WebSocket.decoded config (moment :: h) = WebSocket.decoded config h)
    (untaken : taken (moment :: h) = taken h) (unchosen : WebSocket.chosen (moment :: h) = chosen h)
    (waits : c'.mailbox.messages =
      c.mailbox.messages ++ if c.receiver = none then [message] else [])
    (receiver : c'.receiver = c.receiver) : Balanced config rest c' (moment :: h) := by
  obtain ⟨decoded, stored, routed, chosen⟩ := balanced
  have longer : dispatches (moment :: h) = dispatches h ++ [⟨c.receiver, message⟩] := by
    rw [dispatches, dispatched]
  refine ⟨?_, ?_, ⟨fun dispatch isIn => ?_, routed⟩, ?_⟩
  · rw [same, longer, decoded, List.map_append, List.append_assoc]
    rfl
  · rw [untaken, waits, ← List.append_assoc, stored, given, given, longer, List.filter_append,
      List.map_append]
    by_cases nobody : c.receiver = none <;> simp [nobody]
  · rw [dispatched, List.mem_singleton] at isIn
    rw [isIn]
    exact chosen
  · rw [receiver, chosen, unchosen]

end WebSocket
