import WebSocket.Message.Assembly

/-!
# Frames that an assembly refuses

A frame that is refused leaves the message under way as it was, with one exception: if a limit
refuses the frame that would begin a message, that message counts as under way all the same. From
then on a whole message is refused, and a continuation is taken for a fragment. Which refusals do no
harm, and when a message is under way, is said in `refusal_of_reached`.
-/

namespace WebSocket

/-- A message would grow beyond a limit. -/
def Error.isOfLimit : Error → Bool
  | tooManyFragments .. | messageTooLarge .. => true
  | _ => false

namespace Assembly

/-! ### One frame -/

theorem kindFor_eq_ok {underway : Option DataKind} {op : Opcode} {kind : DataKind}
    (belongs : kindFor underway op = .ok kind) :
    op.begins? = none ∧ underway = some kind ∨ op.begins? = some kind ∧ underway = none := by
  cases op <;> cases underway <;> cases belongs
  · exact .inl ⟨rfl, rfl⟩
  · exact .inr ⟨rfl, rfl⟩
  · exact .inr ⟨rfl, rfl⟩

/-- What comes of a frame that is added. -/
inductive Pushes (a : Assembly) (frame : Frame) : Except Error (Option Message) × Assembly → Prop
  | stray (violation : Violation) (stranger : kindFor a.kind frame.opcode = .error violation) :
    Pushes a frame (.error (.protocolViolation violation), a)
  | limited (kind : DataKind) (e : Error) (belongs : kindFor a.kind frame.opcode = .ok kind)
    (ofLimit : e.isOfLimit) : Pushes a frame (.error e, { a with kind := some kind })
  | gathered (kind : DataKind) (belongs : kindFor a.kind frame.opcode = .ok kind)
    (few : a.fragments + 1 ≤ a.limits.maxFragments)
    (fits : (a.gathered ++ frame.payload).length ≤ a.limits.maxMessageSize) :
    Pushes a frame (.ok none,
      { a with
        kind := some kind
        fragments := a.fragments + 1
        gathered := a.gathered ++ frame.payload })
  | completed (kind : DataKind) (belongs : kindFor a.kind frame.opcode = .ok kind)
    (few : a.fragments + 1 ≤ a.limits.maxFragments)
    (fits : (a.gathered ++ frame.payload).length ≤ a.limits.maxMessageSize) :
    Pushes a frame ((complete kind (a.gathered ++ frame.payload)).map some, a.reset)

theorem pushes (a : Assembly) (frame : Frame) : a.Pushes frame (a.push frame) := by
  have length : (a.gathered ++ frame.payload).length = a.gathered.length + frame.payload.length :=
    List.length_append
  unfold push Limits.checkFragments Limits.checkMessageSize
  cases belongs : kindFor a.kind frame.opcode with
  | error violation => exact .stray violation belongs
  | ok kind =>
    by_cases few : a.fragments + 1 ≤ a.limits.maxFragments
    · by_cases fits : a.gathered.length + frame.payload.length ≤ a.limits.maxMessageSize
      · simp only [few, fits, if_true]
        rw [← length] at fits
        split
        · exact .completed kind belongs few fits
        · exact .gathered kind belongs few fits
      · simp only [few, fits, if_true, if_false]
        exact .limited kind _ belongs rfl
    · simp only [few, if_false]
      exact .limited kind _ belongs rfl

theorem complete_eq_error {kind : DataKind} {payload : Bytes} {e : Error}
    (failed : complete kind payload = .error e) : e = .invalidUtf8 := by
  unfold complete at failed
  repeat' split at failed
  all_goals cases failed
  rfl

/-! ### What was done with an assembly -/

inductive Entry where
  | pushed (frame : Frame) (result : Except Error (Option Message))
  | reset

namespace Entry

/-- No message is under way after it: one was completed, as it should or as text that is not
UTF-8, or what there was of it was dropped. -/
def isEnd : Entry → Bool
  | pushed _ (.ok (some _)) | pushed _ (.error .invalidUtf8) | reset => true
  | pushed .. => false

/-- A fragment was accepted, and others are to follow. -/
def isFragment : Entry → Bool
  | pushed _ (.ok none) => true
  | _ => false

/-- A limit refused the frame that would begin a message. -/
def isFalseStart : Entry → Bool
  | pushed frame (.error e) => frame.opcode.begins?.isSome && e.isOfLimit
  | _ => false

end Entry

/-- What becomes of a new assembly, with what was done to it, latest first. -/
inductive Reached (limits : Limits) : List Entry → Assembly → Prop
  | fresh : Reached limits [] { limits }
  | push {record : List Entry} {a : Assembly} (reached : Reached limits record a) (frame : Frame) :
    Reached limits (.pushed frame (a.push frame).1 :: record) (a.push frame).2
  | reset {record : List Entry} {a : Assembly} (reached : Reached limits record a) :
    Reached limits (.reset :: record) a.reset

/-- The entries since the last message ended. -/
def sinceEnd (record : List Entry) : List Entry := record.takeWhile fun entry => !entry.isEnd

theorem sinceEnd_of_end {entry : Entry} (isEnd : entry.isEnd = true) (record : List Entry) :
    sinceEnd (entry :: record) = [] := by
  simp only [sinceEnd, List.takeWhile_cons, isEnd, Bool.not_true, Bool.false_eq_true, if_false]

theorem sinceEnd_of_other {entry : Entry} (other : entry.isEnd = false) (record : List Entry) :
    sinceEnd (entry :: record) = entry :: sinceEnd record := by
  simp only [sinceEnd, List.takeWhile_cons, other, Bool.not_false, if_true]

/-- What makes a message count as under way. -/
def Started (record : List Entry) : Prop :=
  ∃ entry ∈ sinceEnd record, entry.isFragment = true ∨ entry.isFalseStart = true

theorem started_cons {entry : Entry} (other : entry.isEnd = false) {record : List Entry} :
    Started (entry :: record) ↔
      (entry.isFragment = true ∨ entry.isFalseStart = true) ∨ Started record := by
  unfold Started
  rw [sinceEnd_of_other other]
  simp only [List.mem_cons, exists_eq_or_imp]

theorem not_started_of_end {entry : Entry} (isEnd : entry.isEnd = true) (record : List Entry) :
    ¬Started (entry :: record) := by
  rintro ⟨other, isIn, -⟩
  rw [sinceEnd_of_end isEnd] at isIn
  cases isIn

variable {limits : Limits} {record : List Entry} {a : Assembly}

theorem started_push (before : a.isAssembling = true ↔ Started record) (frame : Frame) :
    (a.push frame).2.isAssembling = true ↔
      Started (.pushed frame (a.push frame).1 :: record) := by
  have pushes := a.pushes frame
  generalize a.push frame = pushed at pushes ⊢
  cases pushes with
  | stray violation stranger =>
    rw [started_cons rfl]
    simpa [Entry.isFragment, Entry.isFalseStart, Error.isOfLimit] using before
  | limited kind e belongs ofLimit =>
    have goesOn : (Entry.pushed frame (.error e)).isEnd = false := by
      cases e <;> first | rfl | cases ofLimit
    have started : Started (.pushed frame (.error e) :: record) := by
      rw [started_cons goesOn]
      rcases kindFor_eq_ok belongs with ⟨-, underway⟩ | ⟨begins, -⟩
      · exact .inr (before.mp (by simp only [isAssembling, underway, Option.isSome_some]))
      · exact .inl (.inr (by simp only [Entry.isFalseStart, begins, ofLimit,
          Option.isSome_some, Bool.and_self]))
    exact ⟨fun _ => started, fun _ => rfl⟩
  | gathered kind belongs few fits =>
    have started : Started (.pushed frame (.ok none) :: record) := by
      rw [started_cons rfl]
      exact .inl (.inl rfl)
    exact ⟨fun _ => started, fun _ => rfl⟩
  | completed kind belongs few fits =>
    have isEnd : (Entry.pushed frame
        ((complete kind (a.gathered ++ frame.payload)).map some)).isEnd = true := by
      cases whole : complete kind (a.gathered ++ frame.payload) with
      | error e =>
        rw [complete_eq_error whole]
        rfl
      | ok message => rfl
    have ended := not_started_of_end isEnd record
    exact ⟨nofun, fun started => absurd started ended⟩

theorem Reached.started (reached : Reached limits record a) :
    a.isAssembling = true ↔ Started record := by
  induction reached with
  | fresh => exact ⟨nofun, fun ⟨_, isIn, _⟩ => absurd isIn List.not_mem_nil⟩
  | push _ frame before => exact started_push before frame
  | @reset record a _ _ =>
    have ended : ¬Started (.reset :: record) := not_started_of_end rfl record
    exact ⟨nofun, fun started => absurd started ended⟩

/-! ### Refusals -/

/-- What comes of frames that are added one after another. -/
def resultsOf (a : Assembly) : List Frame → List (Except Error (Option Message))
  | [] => []
  | frame :: later => (a.push frame).1 :: (a.push frame).2.resultsOf later

theorem push_of_refused {frame : Frame} {e : Error} (refused : (a.push frame).1 = .error e)
    (notText : e ≠ .invalidUtf8) (harmless : (Entry.pushed frame (.error e)).isFalseStart = false) :
    (a.push frame).2 = a := by
  have pushes := a.pushes frame
  generalize a.push frame = pushed at pushes refused ⊢
  cases pushes with
  | stray violation stranger => rfl
  | limited kind e' belongs ofLimit =>
    obtain rfl : e' = e := by simpa using refused
    rcases kindFor_eq_ok belongs with ⟨-, underway⟩ | ⟨begins, -⟩
    · show { a with kind := some kind } = a
      rw [← underway]
    · simp [Entry.isFalseStart, begins, ofLimit] at harmless
  | gathered kind belongs few fits => cases refused
  | completed kind belongs few fits =>
    cases whole : complete kind (a.gathered ++ frame.payload) with
    | error e' =>
      rw [whole] at refused
      obtain rfl : e' = e := by simpa [Except.map] using refused
      exact absurd (complete_eq_error whole) notText
    | ok message => simp [whole, Except.map] at refused

/-- A false start sets the sort of message, and the same frame is then refused as out of place. -/
theorem push_of_falseStart {frame : Frame} {e : Error} (refused : (a.push frame).1 = .error e)
    (falseStart : (Entry.pushed frame (.error e)).isFalseStart = true) :
    a.isAssembling = false ∧ (a.push frame).2.isAssembling = true ∧
      ((a.push frame).2.push frame).1 = .error (.protocolViolation .expectedContinuation) := by
  obtain ⟨begins, ofLimit⟩ : frame.opcode.begins?.isSome = true ∧ e.isOfLimit = true := by
    simpa [Entry.isFalseStart] using falseStart
  have pushes := a.pushes frame
  generalize a.push frame = pushed at pushes refused ⊢
  cases pushes with
  | stray violation stranger =>
    obtain rfl : Error.protocolViolation violation = e := by simpa using refused
    cases ofLimit
  | limited kind e' belongs _ =>
    rcases kindFor_eq_ok belongs with ⟨other, -⟩ | ⟨-, idle⟩
    · rw [other] at begins
      cases begins
    · refine ⟨by rw [isAssembling, idle]; rfl, rfl, ?_⟩
      have stranger : kindFor (some kind) frame.opcode = .error .expectedContinuation := by
        cases op : frame.opcode <;> first | rfl | (rw [op] at begins; cases begins)
      simp only [push, stranger]
  | gathered kind belongs few fits => cases refused
  | completed kind belongs few fits =>
    cases whole : complete kind (a.gathered ++ frame.payload) with
    | error e' =>
      rw [whole, complete_eq_error whole] at refused
      obtain rfl : Error.invalidUtf8 = e := by simpa [Except.map] using refused
      cases ofLimit
    | ok message => simp [whole, Except.map] at refused

/-- A frame that is refused for its place or for a limit leaves the assembly as it was, so that
whatever is added later comes to the same, unless it is a false start: then the message counts as
under way, and later frames fare differently. A message counts as under way exactly if, since the
last one ended, a fragment was accepted or there was a false start. -/
theorem refusal_of_reached (reached : Reached limits record a) :
    (∀ frame e, (a.push frame).1 = .error e → e ≠ .invalidUtf8 →
      let falseStart := (Entry.pushed frame (.error e)).isFalseStart
      ((a.push frame).2.isAssembling = a.isAssembling ↔ falseStart = false) ∧
        ((∀ later, (a.push frame).2.resultsOf later = a.resultsOf later) ↔
          falseStart = false)) ∧
    (a.isAssembling = true ↔ ∃ entry ∈ sinceEnd record,
      entry.isFragment = true ∨ entry.isFalseStart = true) := by
  refine ⟨fun frame e refused notText => ?_, reached.started⟩
  cases falseStart : (Entry.pushed frame (.error e)).isFalseStart with
  | false =>
    have same := push_of_refused refused notText falseStart
    simp only [same, implies_true, and_self]
  | true =>
    obtain ⟨idle, underway, outOfPlace⟩ := push_of_falseStart refused falseStart
    refine ⟨?_, ?_⟩
    · simp only [idle, underway, Bool.true_eq_false]
    · refine ⟨fun same => ?_, nofun⟩
      have first : ((a.push frame).2.push frame).1 = (a.push frame).1 :=
        List.head_eq_of_cons_eq (same [frame])
      rw [outOfPlace, refused] at first
      obtain rfl : Error.protocolViolation .expectedContinuation = e := by simpa using first
      simp [Entry.isFalseStart, Error.isOfLimit] at falseStart

/-- A fragment is there, and the next one is too large for it. -/
theorem refusal_of_reached_secondFragment :
    ∃ record a, Reached ⟨8, 4, 3⟩ record a ∧ record.length = 1 ∧
      let frame : Frame := { opcode := .continuation, payload := [4, 5] }
      (a.push frame).1 = .error (.messageTooLarge 5 4) ∧ a.isAssembling = true ∧
        (a.push frame).2.isAssembling = true ∧
        ∀ later, (a.push frame).2.resultsOf later = a.resultsOf later := by
  have reached : Reached ⟨8, 4, 3⟩ _ _ :=
    .push .fresh { fin := false, opcode := .binary, payload := [1, 2, 3] }
  obtain ⟨refusals, -⟩ := refusal_of_reached reached
  obtain ⟨same, later⟩ :=
    refusals { opcode := .continuation, payload := [4, 5] } (.messageTooLarge 5 4) rfl nofun
  exact ⟨_, _, reached, rfl, rfl, rfl, same.mpr rfl, later.mpr rfl⟩

/-- The first frame of a message is too large. The next message is refused, though by itself it is
accepted. -/
theorem message_refused_after_falseStart :
    ∃ a, Reached ⟨8, 2, 3⟩ [] a ∧
      (a.push (.binary [1, 2, 3])).1 = .error (.messageTooLarge 3 2) ∧
      a.isAssembling = false ∧ (a.push (.binary [1, 2, 3])).2.isAssembling = true ∧
      a.resultsOf [.text [0x68, 0x69]] = [.ok (some (.text "hi"))] ∧
      (a.push (.binary [1, 2, 3])).2.resultsOf [.text [0x68, 0x69]] =
        [.error (.protocolViolation .expectedContinuation)] :=
  ⟨_, .fresh, rfl, rfl, rfl, rfl, rfl⟩

end Assembly

end WebSocket
