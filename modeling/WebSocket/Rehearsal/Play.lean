import WebSocket.Rehearsal.Answer
import WebSocket.Rehearsal.Thread

/-!
# Playing a rehearsal

`perform` makes one step of a script and `Script.play` all of them. Each list of steps is used up
when it is played, so the number of steps bounds how deep the surroundings can call back into the
client.
-/

namespace WebSocket.Rehearsal

/-! ### Steps -/

/-- A response whose header values hold the answer to the current key in place of the mark. -/
def fillIn (s : Stage) (response : UpgradeResponse) : UpgradeResponse :=
  let accept := acceptFor ((s.client.key.map (·.text)).getD "")
  { response with
    headers := response.headers.map fun (name, value) => (name, value.replace "$ACCEPT" accept) }

def rightResponse : UpgradeResponse :=
  { status := 101
    headers := [("Upgrade", "websocket"), ("Connection", "Upgrade"),
      ("Sec-WebSocket-Accept", "$ACCEPT")] }

def Outcome.ofReply : Option Reply → Outcome
  | none => .never
  | some .none => .done
  | some (.flag answer) => .flag answer
  | some (.outcome answer) => .outcome answer
  | some (.count answer) => .count answer
  | some (.message answer) => .message answer

def Outcome.ofReading (reading : Reading) : Option Reply → Outcome
  | some (.message answer) =>
    match reading with
    | .message => .message answer
    | .text => .text (answer.map Message.toText)
    | .bytes => .bytes (answer.map Message.payload)
  | reply => ofReply reply

def lookUp (question : Question) (s : Stage) : Outcome × Stage :=
  match question with
  | .isOpen => (.flag s.client.isOpen, s)
  | .closeStatus => (.close s.client.received, s)
  | .key | .upgradeKey => let (mark, s) := s.markKey; (.key mark, s)
  | .report => (.report s.client.report, s)
  | .config => (.config s.client.config, s)

def callAll (make : Call → Stage → Option Reply × Stage) : List Call → Stage → Outcome × Stage
  | [], s => (.done, s)
  | call :: rest, s =>
    match make call s with
    | (some _, s) => callAll make rest s
    | (none, s) => (.never, s)

/-- Makes steps and notes for each what it gave; `between` happens after each of them. Nothing
comes after a step that never ends. -/
def playWith (perform : Step → Stage → Outcome × Stage) (between : Stage → Stage) :
    List Step → Stage → List Item × Stage
  | [], s => ([], s)
  | step :: rest, s =>
    let (outcome, s) := perform step s
    let phase := s.client.phase
    let (log, s) := s.takeLog
    let item := Item.mk outcome log phase
    match outcome with
    | .never => ([item], s)
    | _ =>
      let (items, s) := playWith perform between rest (between s)
      (item :: items, s)

/-- Makes calls on threads of their own while other steps are made; gives those steps and what
the calls gave. Threads that need not wait go on before new ones start. -/
def playDuring (perform : Step → Stage → Outcome × Stage) (answer : Surroundings Props)
    (turns : Nat) (calls : List Call) (meanwhile : List Step) (s : Stage) :
    (List Item × List (Option Reply)) × Stage :=
  let (threads, s) := startAll answer calls (settle answer turns s)
  let (items, s) := playWith perform (settle answer turns) meanwhile s
  let (replies, s) := joinAll answer turns threads s
  ((items, replies), s)

/-- Makes a step. `depth` bounds how deep the surroundings call back into the client, and how often
threads take turns during one wait. -/
def perform : (depth : Nat) → Step → Stage → Outcome × Stage
  | 0, _, s => (.never, s)
  | depth + 1, step, s =>
    let answer := surroundings (perform depth)
    let make (call : Call) := call.action.finish answer (pause answer depth)
    match step with
    | .connect =>
      let (key, s) := s.freshKey
      (make (.connect key) s).map Outcome.ofReply id
    | .connectAsync =>
      let (key, s) := s.freshKey
      (make (.connectAsync key) s).map Outcome.ofReply id
    | .call call => (make call s).map Outcome.ofReply id
    | .receive reading limit => (make (.receive limit) s).map (Outcome.ofReading reading) id
    | .look question => lookUp question s
    | .respond response => callAll make [.responseArrived (fillIn s response)] s
    | .accept => callAll make [.responseArrived (fillIn s rightResponse), .handshakeCompleted] s
    | .deliver chunks => callAll make (chunks.map .bytesArrived) s
    | .transport changes =>
      (.done, s.adjust fun p => { p with manner := changes.foldl Manner.apply p.manner })
    | .connectWhile meanwhile =>
      let (key, s) := s.freshKey
      let ((items, replies), s) :=
        playDuring (perform depth) answer depth [.connect key] meanwhile s
      (.duringConnect items (.ofReply replies.head?.join), s)
    | .receiveWhile readers reading limit meanwhile =>
      let ((items, replies), s) :=
        playDuring (perform depth) answer depth (List.replicate readers (.receive limit))
          meanwhile s
      (.duringReceive items (replies.map (.ofReading reading)), s)

/-! ### Whole rehearsals -/

/-- What is played: the settings of the client, whether it has a listener from the start, the
steps of the surroundings on their cues, and the steps themselves. -/
structure Script where
  config : Config
  listens : Bool
  cues : Cue → List (List Step)
  steps : List Step

def Cue.all : List Cue :=
  [.connect, .connectAsync, .connected, .disconnected, .ping, .pong, .close, .error, .message]

structure Transcript where
  items : List Item
  client : Client
  key : Option KeyMark

/-- A bound on the depth of calls and on the turns of threads. A call back into the client is made
by a step that is under way, or by the transport that goes down because of one; and a thread is
started by a step and waits at most twice. -/
def Script.depth (script : Script) : Nat :=
  let cued := Cue.all.foldr (fun cue size => sizeAll (script.cues cue).flatten + size) 0
  4 * (sizeAll script.steps + cued) + 4

def Script.play (script : Script) : Transcript :=
  let client := Client.ofConfig script.config 0
  let client := if script.listens then { client with listener := some (.named "main") } else client
  let (items, s) := playWith (perform script.depth) id script.steps
    { client, around := { cues := script.cues } }
  let (key, s) := s.markKey
  { items, client := s.client, key }

end WebSocket.Rehearsal
