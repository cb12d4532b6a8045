import WebSocket.Close.Negotiation

/-!
# At most one close a connection

A negotiation may be put through any operations in any order. From the moment a connection begins
until the next one does, a close is ordered at most once, and the status that counts as sent is that
of the close that was ordered (`orders_of_reached`). The phase alone does not tell: an attempt that
is given up before it is open ends up closing from this side, too, and has nothing to send.
-/

namespace WebSocket.Negotiation

/-! ### Operations -/

inductive Operation where
  | beginConnect
  | completeHandshake
  | closeLocally (status : UInt16)
  | closeRemotely (body : Option CloseBody)
  | disconnect
  deriving DecidableEq, Repr

inductive Answer where
  | verdict (done : Bool)
  | reaction (reaction : Reaction)
  deriving DecidableEq, Repr

def perform (n : Negotiation) : Operation → Answer × Negotiation
  | .beginConnect => n.beginConnect.map .verdict id
  | .completeHandshake => n.completeHandshake.map .verdict id
  | .closeLocally status => (n.closeLocally status).map .verdict id
  | .closeRemotely body => (n.closeRemotely body).map .reaction id
  | .disconnect => n.disconnect.map .verdict id

def Operation.isClose : Operation → Bool
  | closeLocally _ | closeRemotely _ => true
  | _ => false

/-- An operation that was performed. -/
structure Deed where
  before : Negotiation
  operation : Operation
  answer : Answer
  after : Negotiation
  deriving DecidableEq, Repr

def deed (n : Negotiation) (op : Operation) : Deed :=
  ⟨n, op, (n.perform op).1, (n.perform op).2⟩

namespace Deed

/-- A connection begins. -/
def begins : Deed → Bool
  | ⟨_, .beginConnect, .verdict true, _⟩ => true
  | _ => false

/-- The handshake is taken for complete. -/
def opens : Deed → Bool
  | ⟨_, .completeHandshake, .verdict true, _⟩ => true
  | _ => false

/-- The status of the close that is to be sent. -/
def ordered? : Deed → Option UInt16
  | ⟨_, .closeLocally status, .verdict true, _⟩ => some status
  | ⟨_, _, .reaction (.echo status), _⟩ => some status
  | _ => none

def echoes : Deed → Bool
  | ⟨_, _, .reaction (.echo _), _⟩ => true
  | _ => false

def tearsDown : Deed → Bool
  | ⟨_, _, .reaction .teardown, _⟩ => true
  | _ => false

def leavesOpen (deed : Deed) : Bool :=
  deed.before.phase == .opened && deed.after.phase != .opened

/-- The transport is down that was up before. -/
def goesDown : Deed → Bool
  | ⟨_, .disconnect, .verdict true, _⟩ => true
  | _ => false

end Deed

/-- What an operation comes to. -/
inductive Moves (n : Negotiation) : Deed → Prop
  | begun (down : n.phase = .closed) :
    Moves n ⟨n, .beginConnect, .verdict true, { phase := .connecting }⟩
  | opened (connecting : n.phase = .connecting) :
    Moves n ⟨n, .completeHandshake, .verdict true, { n with phase := .opened }⟩
  | ordered (status : UInt16) (isOpen : n.phase = .opened) :
    Moves n ⟨n, .closeLocally status, .verdict true,
      { n with phase := .closingLocal, sent := some status }⟩
  | givenUp (status : UInt16) (connecting : n.phase = .connecting) :
    Moves n ⟨n, .closeLocally status, .verdict false, { n with phase := .closingLocal }⟩
  | echoed (body : Option CloseBody) (isOpen : n.phase = .opened) :
    Moves n ⟨n, .closeRemotely body, .reaction (.echo (answerStatus body)),
      { phase := .closingRemote, sent := some (answerStatus body), received := body }⟩
  | tornDown (body : Option CloseBody)
    (unanswered : n.phase = .closingLocal ∨ n.phase = .connecting) :
    Moves n ⟨n, .closeRemotely body, .reaction .teardown,
      { n with phase := .closingLocal, received := body }⟩
  | ignored (body : Option CloseBody) (past : n.phase = .closingRemote ∨ n.phase = .closed) :
    Moves n ⟨n, .closeRemotely body, .reaction .ignore, { n with received := body }⟩
  | wentDown (up : n.phase ≠ .closed) :
    Moves n ⟨n, .disconnect, .verdict true, { n with phase := .closed }⟩
  | refused (op : Operation) (late : op.isClose → n.phase ≠ .opened) :
    Moves n ⟨n, op, .verdict false, n⟩

theorem moves (n : Negotiation) (op : Operation) : n.Moves (n.deed op) := by
  obtain ⟨phase, sent, received⟩ := n
  cases op with
  | beginConnect =>
    cases phase with
    | closed => exact .begun rfl
    | connecting | opened | closingLocal | closingRemote => exact .refused .beginConnect nofun
  | completeHandshake =>
    cases phase with
    | connecting => exact .opened rfl
    | opened | closingLocal | closingRemote | closed => exact .refused .completeHandshake nofun
  | closeLocally status =>
    cases phase with
    | opened => exact .ordered status rfl
    | connecting => exact .givenUp status rfl
    | closingLocal | closingRemote | closed => exact .refused (.closeLocally status) nofun
  | closeRemotely body =>
    cases phase with
    | opened => exact .echoed body rfl
    | closingLocal => exact .tornDown body (.inl rfl)
    | connecting => exact .tornDown body (.inr rfl)
    | closingRemote => exact .ignored body (.inl rfl)
    | closed => exact .ignored body (.inr rfl)
  | disconnect =>
    cases phase with
    | closed => exact .refused .disconnect nofun
    | connecting | opened | closingLocal | closingRemote => exact .wentDown nofun

/-! ### What was done since the connection began -/

/-- What becomes of a new negotiation, with what was done to it, latest first. -/
inductive Reached : List Deed → Negotiation → Prop
  | fresh : Reached [] {}
  | step {record : List Deed} {n : Negotiation} (reached : Reached record n) (op : Operation) :
    Reached (n.deed op :: record) (n.deed op).after

/-- The deeds since the last connection began. -/
def sinceBegin (record : List Deed) : List Deed := record.takeWhile fun deed => !deed.begins

theorem sinceBegin_of_begins {deed : Deed} (begins : deed.begins = true) (record : List Deed) :
    sinceBegin (deed :: record) = [] := by
  simp only [sinceBegin, List.takeWhile_cons, begins, Bool.not_true, Bool.false_eq_true, if_false]

theorem sinceBegin_of_other {deed : Deed} (other : deed.begins = false) (record : List Deed) :
    sinceBegin (deed :: record) = deed :: sinceBegin record := by
  simp only [sinceBegin, List.takeWhile_cons, other, Bool.not_false, if_true]

variable {record : List Deed} {n : Negotiation}

theorem begun_of_begins {deed : Deed} (moves : n.Moves deed) (begins : deed.begins = true) :
    n.phase = .closed ∧ deed.after = { phase := .connecting } := by
  cases moves with
  | begun down => exact ⟨down, rfl⟩
  | refused op late => cases op <;> cases begins
  | _ => cases begins

/-- What holds when a connection begins and stays true whatever is done, holds as long as the
connection does. Before the first connection it has to hold of a new negotiation. -/
theorem holds_since_begin {motive : List Deed → Negotiation → Prop}
    (begun : motive [] { phase := .connecting })
    (step : ∀ stretch n deed, motive stretch n → n.Moves deed → deed.begins = false →
      motive (deed :: stretch) deed.after)
    (reached : Reached record n) (fresh : record.any Deed.begins = false → motive [] {}) :
    motive (sinceBegin record) n := by
  induction reached with
  | fresh => exact fresh rfl
  | @step record n reached op before =>
    have moves := n.moves op
    cases begins : (n.deed op).begins with
    | true =>
      rw [sinceBegin_of_begins begins, (begun_of_begins moves begins).2]
      exact begun
    | false =>
      rw [sinceBegin_of_other begins]
      refine step _ _ _ (before fun none => fresh ?_) moves begins
      rw [List.any_cons, begins, none, Bool.or_self]

/-! ### Orders -/

/-- The close that was ordered is the one that counts as sent. -/
structure Accounted (stretch : List Deed) (n : Negotiation) : Prop where
  orders : stretch.filterMap Deed.ordered? = n.sent.toList
  early : n.phase = .connecting ∨ n.phase = .opened → n.sent = none

theorem accounted (reached : Reached record n) : Accounted (sinceBegin record) n := by
  refine holds_since_begin ⟨rfl, fun _ => rfl⟩ ?_ reached fun _ => ⟨rfl, nofun⟩
  intro stretch n deed ⟨orders, early⟩ moves other
  cases moves with
  | begun down => cases other
  | opened connecting => exact ⟨orders, fun _ => early (.inl connecting)⟩
  | ordered status isOpen =>
    rw [early (.inr isOpen)] at orders
    exact ⟨congrArg (status :: ·) orders, nofun⟩
  | givenUp status connecting => exact ⟨orders, nofun⟩
  | echoed body isOpen =>
    rw [early (.inr isOpen)] at orders
    exact ⟨congrArg (answerStatus body :: ·) orders, nofun⟩
  | tornDown body unanswered => exact ⟨orders, nofun⟩
  | ignored body past => exact ⟨orders, early⟩
  | wentDown up => exact ⟨orders, nofun⟩
  | refused op late => exact ⟨by cases op <;> exact orders, early⟩

/-- A connection is open from the handshake until a close is ordered or the transport is down. -/
structure Opening (stretch : List Deed) (n : Negotiation) : Prop where
  unopened : n.phase = .connecting →
    stretch.any Deed.opens = false ∧ n.sent = none ∧ stretch.any Deed.goesDown = false
  isOpen : n.phase = .opened ↔
    stretch.any Deed.opens = true ∧ n.sent = none ∧ stretch.any Deed.goesDown = false

theorem opening (reached : Reached record n) : Opening (sinceBegin record) n := by
  refine holds_since_begin ⟨fun _ => ⟨rfl, rfl, rfl⟩, nofun, nofun⟩ ?_ reached
    fun _ => ⟨nofun, nofun, nofun⟩
  intro stretch n deed ⟨unopened, isOpen⟩ moves other
  cases moves with
  | begun down => cases other
  | opened connecting =>
    have untouched := (unopened connecting).2
    exact ⟨nofun, fun _ => ⟨rfl, untouched⟩, fun _ => rfl⟩
  | ordered status wasOpen => exact ⟨nofun, nofun, fun ⟨_, unsent, _⟩ => nomatch unsent⟩
  | givenUp status connecting =>
    refine ⟨nofun, nofun, fun ⟨opens, _⟩ => ?_⟩
    exact absurd ((unopened connecting).1.symm.trans opens) nofun
  | echoed body wasOpen => exact ⟨nofun, nofun, fun ⟨_, unsent, _⟩ => nomatch unsent⟩
  | tornDown body unanswered =>
    refine ⟨nofun, nofun, fun opened => ?_⟩
    have wasOpen : n.phase = .opened := isOpen.mpr opened
    rcases unanswered with closing | connecting
    · exact absurd (closing.symm.trans wasOpen) nofun
    · exact absurd (connecting.symm.trans wasOpen) nofun
  | ignored body past => exact ⟨unopened, isOpen⟩
  | wentDown up => exact ⟨nofun, nofun, fun ⟨_, _, up⟩ => nomatch up⟩
  | refused op late => cases op <;> exact ⟨unopened, isOpen⟩

theorem not_open_of_left (reached : Reached record n) :
    (sinceBegin record).any Deed.leavesOpen = true →
      n.phase ≠ .connecting ∧ n.phase ≠ .opened := by
  refine holds_since_begin
    (motive := fun stretch n =>
      stretch.any Deed.leavesOpen = true → n.phase ≠ .connecting ∧ n.phase ≠ .opened)
    nofun ?_ reached fun _ => nofun
  intro stretch n deed before moves other left
  have earlier : n.phase ≠ .opened ∨ deed.after.phase = n.phase →
      stretch.any Deed.leavesOpen = true := by
    intro stays
    have here : deed.before = n := by cases moves <;> rfl
    rcases stays with notOpen | same
    · simpa [Deed.leavesOpen, here, notOpen] using left
    · simpa [Deed.leavesOpen, here, same] using left
  cases moves with
  | begun down => cases other
  | opened connecting =>
    exact absurd connecting (before (earlier (.inl (by simp [connecting])))).1
  | ordered | givenUp | echoed | tornDown | wentDown => exact ⟨nofun, nofun⟩
  | ignored body past => exact before (earlier (.inr rfl))
  | refused op late => exact before (earlier (.inr rfl))

/-! ### The end of a connection -/

/-- The transport goes down once, which closes the connection. -/
structure Downed (stretch : List Deed) (n : Negotiation) : Prop where
  once : stretch.countP Deed.goesDown ≤ 1
  up : n.phase ≠ .closed → stretch.countP Deed.goesDown = 0

theorem downed (reached : Reached record n) : Downed (sinceBegin record) n := by
  refine holds_since_begin ⟨Nat.zero_le 1, fun _ => rfl⟩ ?_ reached
    fun _ => ⟨Nat.zero_le 1, fun _ => rfl⟩
  intro stretch n deed ⟨once, up⟩ moves other
  cases moves with
  | begun down => cases other
  | opened connecting => exact ⟨once, fun _ => up (by simp [connecting])⟩
  | ordered status isOpen => exact ⟨once, fun _ => up (by simp [isOpen])⟩
  | givenUp status connecting => exact ⟨once, fun _ => up (by simp [connecting])⟩
  | echoed body isOpen => exact ⟨once, fun _ => up (by simp [isOpen])⟩
  | tornDown body unanswered =>
    refine ⟨once, fun _ => up ?_⟩
    rcases unanswered with closing | connecting
    · simp [closing]
    · simp [connecting]
  | ignored body past => exact ⟨once, up⟩
  | wentDown stillUp =>
    refine ⟨?_, nofun⟩
    simp only [List.countP_cons, up stillUp, Deed.goesDown, if_true, Nat.zero_add, Nat.le_refl]
  | refused op late => cases op <;> exact ⟨once, up⟩

theorem downed_of_closed (reached : Reached record n) (begun : record.any Deed.begins = true) :
    n.phase = .closed → 0 < (sinceBegin record).countP Deed.goesDown := by
  refine holds_since_begin
    (motive := fun stretch n => n.phase = .closed → 0 < stretch.countP Deed.goesDown)
    nofun ?_ reached fun none => absurd (none.symm.trans begun) nofun
  intro stretch n deed before moves other
  cases moves with
  | begun down => cases other
  | opened | ordered | givenUp | echoed | tornDown => exact nofun
  | ignored body past => exact before
  | wentDown up =>
    intro _
    simp only [List.countP_cons, Deed.goesDown, if_true, Nat.succ_pos]
  | refused op late => cases op <;> exact before

/-! ### Closes from the server -/

theorem up_of_tearsDown (reached : Reached record n) :
    ∀ deed ∈ record, deed.tearsDown = true → deed.before.phase ≠ .closed := by
  induction reached with
  | fresh => exact fun _ isIn => absurd isIn List.not_mem_nil
  | @step record n reached op before =>
    intro deed isIn tearsDown
    rcases List.mem_cons.mp isIn with rfl | earlier
    · have moves := n.moves op
      generalize n.deed op = deed at moves tearsDown ⊢
      cases moves with
      | tornDown body unanswered => rcases unanswered with past | past <;> simp [past]
      | _ => cases tearsDown
    · exact before deed earlier tearsDown

/-- A close from the server is echoed, or it takes the transport down; on one connection only one
of the two ever happens. -/
structure Answered (stretch : List Deed) (n : Negotiation) : Prop where
  unechoed : n.phase ≠ .closingRemote → n.phase ≠ .closed → stretch.any Deed.echoes = false
  untorn : n.phase ≠ .closingLocal → n.phase ≠ .closed → stretch.any Deed.tearsDown = false
  apart : stretch.any Deed.tearsDown = false ∨ stretch.any Deed.echoes = false

theorem answered (reached : Reached record n) : Answered (sinceBegin record) n := by
  have nothing : ∀ n : Negotiation, Answered [] n :=
    fun _ => ⟨fun _ _ => rfl, fun _ _ => rfl, .inl rfl⟩
  refine holds_since_begin (nothing _) ?_ reached fun _ => nothing _
  intro stretch n deed ⟨unechoed, untorn, apart⟩ moves other
  cases moves with
  | begun down => cases other
  | opened connecting =>
    have quiet := unechoed (by simp [connecting]) (by simp [connecting])
    have still := untorn (by simp [connecting]) (by simp [connecting])
    exact ⟨fun _ _ => quiet, fun _ _ => still, apart⟩
  | ordered status isOpen =>
    have quiet := unechoed (by simp [isOpen]) (by simp [isOpen])
    exact ⟨fun _ _ => quiet, fun notLocal => absurd rfl notLocal, apart⟩
  | givenUp status connecting =>
    have quiet := unechoed (by simp [connecting]) (by simp [connecting])
    exact ⟨fun _ _ => quiet, fun notLocal => absurd rfl notLocal, apart⟩
  | echoed body isOpen =>
    have still := untorn (by simp [isOpen]) (by simp [isOpen])
    exact ⟨fun notRemote => absurd rfl notRemote, fun _ _ => still, .inl still⟩
  | tornDown body unanswered =>
    have quiet : stretch.any Deed.echoes = false := by
      rcases unanswered with before | before
      all_goals exact unechoed (by simp [before]) (by simp [before])
    exact ⟨fun _ _ => quiet, fun notLocal => absurd rfl notLocal, .inr quiet⟩
  | ignored body past => exact ⟨unechoed, untorn, apart⟩
  | wentDown up =>
    have isClosed : ∀ {p : Prop}, Phase.closed ≠ Phase.closed → p := fun not => absurd rfl not
    exact ⟨fun _ => isClosed, fun _ => isClosed, apart⟩
  | refused op late => cases op <;> exact ⟨unechoed, untorn, apart⟩

/-! ### One connection -/

theorem ordered?_isSome_iff (n : Negotiation) (op : Operation) :
    (n.deed op).ordered?.isSome = true ↔ op.isClose = true ∧ n.phase = .opened := by
  have moves := n.moves op
  generalize acted : n.deed op = deed at moves ⊢
  obtain rfl : deed.operation = op := congrArg Deed.operation acted.symm
  cases moves with
  | begun down => exact ⟨nofun, nofun⟩
  | opened connecting => exact ⟨nofun, nofun⟩
  | ordered status isOpen => exact ⟨fun _ => ⟨rfl, isOpen⟩, fun _ => rfl⟩
  | givenUp status connecting =>
    exact ⟨nofun, fun ⟨_, isOpen⟩ => absurd (connecting.symm.trans isOpen) nofun⟩
  | echoed body isOpen => exact ⟨fun _ => ⟨rfl, isOpen⟩, fun _ => rfl⟩
  | tornDown body unanswered =>
    refine ⟨nofun, fun ⟨_, isOpen⟩ => ?_⟩
    rcases unanswered with before | before <;> exact absurd (before.symm.trans isOpen) nofun
  | ignored body past =>
    refine ⟨nofun, fun ⟨_, isOpen⟩ => ?_⟩
    rcases past with before | before <;> exact absurd (before.symm.trans isOpen) nofun
  | wentDown up => exact ⟨nofun, nofun⟩
  | refused op late =>
    refine ⟨fun ordered => ?_, fun ⟨isClose, isOpen⟩ => absurd isOpen (late isClose)⟩
    cases op <;> cases ordered

/-- From the moment a connection begins, the closes that were ordered are the one that counts as
sent, or none. One is ordered exactly if a side closes after the handshake, and neither has a close
been ordered nor has the transport gone down since then. A connection that was open and is not will
not be again. The transport goes down at most once, and exactly once if another connection can
begin. Where a close of the server takes it down, none is ever echoed. -/
theorem orders_of_reached (reached : Reached record n) :
    let stretch := sinceBegin record
    stretch.filterMap Deed.ordered? = n.sent.toList ∧
    (∀ op, (n.deed op).ordered?.isSome = true ↔ op.isClose = true ∧
      stretch.any Deed.opens = true ∧
      ∀ deed ∈ stretch, deed.ordered? = none ∧ deed.goesDown = false) ∧
    (stretch.any Deed.leavesOpen = true → n.phase ≠ .opened) ∧
    stretch.countP Deed.goesDown ≤ 1 ∧
    (record.any Deed.begins = true → (n.deed .beginConnect).begins = true →
      stretch.countP Deed.goesDown = 1) ∧
    ∀ deed ∈ stretch, deed.tearsDown = true →
      deed.before.phase ≠ .closed ∧ ∀ other ∈ stretch, other.echoes = false := by
  have orders := (accounted reached).orders
  have isOpen := (opening reached).isOpen
  have once := (downed reached).once
  refine ⟨orders, fun op => ?_, fun left => (not_open_of_left reached left).2, once,
    fun begun begins => ?_, fun deed isIn tearsDown => ⟨?_, fun other isOther => ?_⟩⟩
  · have unsent : n.sent = none ↔ ∀ deed ∈ sinceBegin record, deed.ordered? = none := by
      rw [← List.filterMap_eq_nil_iff, orders, Option.toList_eq_nil_iff]
    rw [ordered?_isSome_iff, isOpen, unsent, List.any_eq_false]
    simp only [Bool.not_eq_true, forall_and]
  · have closed := (begun_of_begins (n.moves .beginConnect) begins).1
    exact Nat.le_antisymm once (downed_of_closed reached begun closed)
  · have inRecord : deed ∈ record := (List.takeWhile_sublist _).subset isIn
    exact up_of_tearsDown reached deed inRecord tearsDown
  · rcases (answered reached).apart with untorn | unechoed
    · exact absurd tearsDown (List.any_eq_false.mp untorn deed isIn)
    · exact Bool.eq_false_iff.mpr (List.any_eq_false.mp unechoed other isOther)

/-- A connection whose close was echoed, and an attempt that is given up before it is open. The
attempt goes through closing from this side and nothing was sent. -/
theorem orders_of_reached_givenUp :
    ∃ record n, Reached record n ∧
      (sinceBegin record).map Deed.operation =
        [.disconnect, .closeRemotely none, .closeLocally 4000] ∧
      (sinceBegin record).any (fun deed => deed.after.phase == .closingLocal) = true ∧
      (sinceBegin record).filterMap Deed.ordered? = n.sent.toList ∧ n.sent = none ∧
      (sinceBegin record).countP Deed.goesDown = 1 := by
  have first : Reached _ _ := ((((Reached.fresh.step .beginConnect).step .completeHandshake).step
    (.closeRemotely (some ⟨.goingAway, "restart"⟩))).step (.closeLocally 1000)).step .disconnect
  have second : Reached _ _ := (((first.step .beginConnect).step (.closeLocally 4000)).step
    (.closeRemotely none)).step .disconnect
  obtain ⟨orders, -, -, -, down, -⟩ := orders_of_reached second
  exact ⟨_, _, second, rfl, rfl, orders, rfl, down rfl rfl⟩

end WebSocket.Negotiation
