import Mathlib.Logic.Relation
import WebSocket.Proofs.Handshake.Fields

/-!
# Which responses are accepted

A response is accepted if it completes the handshake of its key (`UpgradeResponse.Completes`), and
in no other case. How its headers are written makes no difference (`Rewritten`): the case of letters
in names, blanks around values and around the tokens of a connection, headers that are not asked
for, and the order of headers with different names (`validate_exactly`).
-/

namespace WebSocket

abbrev HeaderField := String × String

namespace UpgradeResponse

/-! ### The first header with a name -/

/-- The value of the first header with a name, as it was written. -/
def First (response : UpgradeResponse) (name value : String) : Prop :=
  ∃ before written after, response.headers = before ++ (written, value) :: after ∧
    SameLetters written.toList name.toList ∧
    ∀ header ∈ before, ¬SameLetters header.1.toList name.toList

theorem header?_eq_some_iff (response : UpgradeResponse) (name : String) (value : List Char) :
    response.header? name = some value ↔
      ∃ text, response.First name text ∧ trimBlanks text.toList = value := by
  simp only [header?, Option.map_eq_some_iff, List.find?_eq_some_iff_append, First,
    equalIgnoringCase_iff, Bool.not_eq_true', ← Bool.not_eq_true]
  constructor
  · rintro ⟨⟨written, text⟩, ⟨named, before, after, headers, others⟩, trimmed⟩
    exact ⟨text, ⟨before, written, after, headers, named, others⟩, trimmed⟩
  · rintro ⟨text, ⟨before, written, after, headers, named, others⟩, trimmed⟩
    exact ⟨(written, text), ⟨named, before, after, headers, others⟩, trimmed⟩

/-! ### Accepted responses -/

/-- The answer to a key: the status for a change of protocols, the protocol, the option that goes
with it among those of the connection, and the proof that the key was read. -/
structure Completes (response : UpgradeResponse) (key : HandshakeKey) : Prop where
  status : response.status = 101
  upgrade : ∃ text value, response.First "upgrade" text ∧ Trimmed text.toList value ∧
    SameLetters value "websocket".toList
  connection : ∃ text, response.First "connection" text ∧
    ∃ token ∈ text.toList.splitOn ',', ∃ value, Trimmed token value ∧
      SameLetters value "upgrade".toList
  accept : ∃ text, response.First "sec-websocket-accept" text ∧ Trimmed text.toList
    (Base64.encode (Sha1.digest (Bytes.ofString key.text ++ Bytes.ofString handshakeGuid))).toList

/-- The tokens of a value. -/
def tokens (value : List Char) : List (List Char) := (value.splitOn ',').map trimBlanks

theorem hasToken_iff (value : List Char) (token : String) :
    hasToken value token ↔ ∃ piece ∈ tokens value, equalIgnoringCase piece token.toList := by
  rw [hasToken, splitCommas_eq_splitOn, tokens, List.any_eq_true]
  simp only [List.mem_map, exists_exists_and_eq_and]

theorem validate_eq_ok_iff (response : UpgradeResponse) (key : HandshakeKey) :
    response.validate key = .ok () ↔ response.flaw? key = none := by
  rw [validate]
  cases response.flaw? key <;> simp

theorem flaw?_eq_none_iff (response : UpgradeResponse) (key : HandshakeKey) :
    response.flaw? key = none ↔ response.status = 101 ∧
      (∃ value, response.header? "upgrade" = some value ∧
        equalIgnoringCase value "websocket".toList) ∧
      (∃ options, (response.header? "connection").map tokens = some options ∧
        ∃ token ∈ options, equalIgnoringCase token "upgrade".toList) ∧
      response.header? "sec-websocket-accept" = some key.accept.toList := by
  constructor
  · intro flawless
    -- Whichever check fails gives a flaw, so each of them has passed.
    unfold flaw? at flawless
    split at flawless
    · cases flawless
    rename_i status
    split at flawless
    · cases flawless
    rename_i upgrade hasUpgrade
    split at flawless
    · cases flawless
    rename_i isUpgrade
    split at flawless
    · cases flawless
    rename_i connection hasConnection
    split at flawless
    · cases flawless
    rename_i isOption
    split at flawless
    · cases flawless
    rename_i accept hasAccept
    split at flawless
    · cases flawless
    rename_i isAccept
    rw [Bool.not_eq_true', Bool.not_eq_false] at isUpgrade isOption
    rw [bne_iff_ne, not_not] at isAccept
    exact ⟨not_not.mp status, ⟨upgrade, hasUpgrade, isUpgrade⟩,
      ⟨tokens connection, by rw [hasConnection, Option.map_some],
        (hasToken_iff connection "upgrade").mp isOption⟩, by rw [hasAccept, isAccept]⟩
  · rintro ⟨status, ⟨upgrade, hasUpgrade, isUpgrade⟩, ⟨options, hasOptions, isOption⟩, hasAccept⟩
    obtain ⟨connection, hasConnection, rfl⟩ := Option.map_eq_some_iff.mp hasOptions
    have isOption := (hasToken_iff connection "upgrade").mpr isOption
    rw [flaw?, if_neg (not_not.mpr status), hasUpgrade, hasConnection, hasAccept]
    dsimp only
    rw [isUpgrade, isOption, Bool.not_true, if_neg Bool.false_ne_true, if_neg Bool.false_ne_true,
      if_neg (by rw [bne_iff_ne, not_not])]

/-- The tokens are those of the value as it was written. -/
theorem map_tokens_header?_eq_some_iff (response : UpgradeResponse) (name : String)
    (options : List (List Char)) :
    (response.header? name).map tokens = some options ↔
      ∃ text, response.First name text ∧ tokens text.toList = options := by
  simp only [Option.map_eq_some_iff, header?_eq_some_iff]
  constructor
  · rintro ⟨_, ⟨text, first, rfl⟩, rfl⟩
    exact ⟨text, first, (map_trimBlanks_splitOn_trimBlanks text.toList).symm⟩
  · rintro ⟨text, first, rfl⟩
    exact ⟨_, ⟨text, first, rfl⟩, map_trimBlanks_splitOn_trimBlanks text.toList⟩

theorem validate_eq_ok_iff_completes (response : UpgradeResponse) (key : HandshakeKey) :
    response.validate key = .ok () ↔ response.Completes key := by
  rw [validate_eq_ok_iff, flaw?_eq_none_iff]
  simp only [map_tokens_header?_eq_some_iff, header?_eq_some_iff, equalIgnoringCase_iff]
  constructor
  · rintro ⟨status, ⟨_, ⟨upgrade, hasUpgrade, rfl⟩, isUpgrade⟩,
      ⟨_, ⟨connection, hasConnection, rfl⟩, _, isIn, isOption⟩, accept, hasAccept, isAccept⟩
    obtain ⟨token, isToken, rfl⟩ := List.mem_map.mp isIn
    exact {
      status
      upgrade := ⟨upgrade, _, hasUpgrade, trimmed_trimBlanks _, isUpgrade⟩
      connection := ⟨connection, hasConnection, token, isToken, _, trimmed_trimBlanks _, isOption⟩
      accept := ⟨accept, hasAccept, (trimBlanks_eq_iff _ _).mp isAccept⟩ }
  · rintro ⟨status, ⟨upgrade, _, hasUpgrade, trimmed, isUpgrade⟩,
      ⟨connection, hasConnection, token, isToken, _, trimmedToken, isOption⟩,
      accept, hasAccept, isAccept⟩
    obtain rfl := (trimBlanks_eq_iff _ _).mpr trimmed
    obtain rfl := (trimBlanks_eq_iff _ _).mpr trimmedToken
    exact ⟨status, ⟨_, ⟨upgrade, hasUpgrade, rfl⟩, isUpgrade⟩,
      ⟨_, ⟨connection, hasConnection, rfl⟩, _, List.mem_map_of_mem isToken, isOption⟩,
      accept, hasAccept, (trimBlanks_eq_iff _ _).mpr isAccept⟩

/-! ### Ways to write a response -/

/-- The names of the headers that are asked for. -/
def askedFor : List String := ["upgrade", "connection", "sec-websocket-accept"]

/-- The tokens of a connection have more blanks around them. -/
def TokensPadded (header other : HeaderField) : Prop :=
  SameLetters header.1.toList "connection".toList ∧
    List.Forall₂ Padded (header.2.toList.splitOn ',') (other.2.toList.splitOn ',')

/-- The same headers, written in another way. -/
inductive Rewritten : List HeaderField → List HeaderField → Prop
  /-- The names have letters in other cases. -/
  | recase {headers others : List HeaderField}
    (same : List.Forall₂ (fun h h' => SameLetters h.1.toList h'.1.toList ∧ h.2 = h'.2)
      headers others) : Rewritten headers others
  /-- The values have more blanks around them. -/
  | pad {headers others : List HeaderField}
    (same : List.Forall₂ (fun h h' => h.1 = h'.1 ∧ Padded h.2.toList h'.2.toList)
      headers others) : Rewritten headers others
  | padTokens {headers others : List HeaderField}
    (same : List.Forall₂ (fun h h' => h.1 = h'.1 ∧ (h.2 = h'.2 ∨ TokensPadded h h'))
      headers others) : Rewritten headers others
  /-- There is one more header, which is not asked for. -/
  | add (before : List HeaderField) (header : HeaderField) (after : List HeaderField)
    (foreign : ∀ name ∈ askedFor, ¬SameLetters header.1.toList name.toList) :
    Rewritten (before ++ after) (before ++ header :: after)
  /-- The order is another one, but not that of headers with the same name. -/
  | reorder {headers others : List HeaderField} (same : headers.Perm others)
    (order : ∀ name : String, headers.filter (equalIgnoringCase ·.1.toList name.toList) =
      others.filter (equalIgnoringCase ·.1.toList name.toList)) : Rewritten headers others

theorem map_find?_of_forall₂ {β : Type} {R : HeaderField → HeaderField → Prop}
    {named : HeaderField → Bool} {view : HeaderField → β} {headers others : List HeaderField}
    (same : List.Forall₂ R headers others)
    (names : ∀ h h', R h h' → named h = named h')
    (views : ∀ h h', R h h' → named h → view h = view h') :
    (others.find? named).map view = (headers.find? named).map view := by
  induction same with
  | nil => rfl
  | @cons h h' _ _ first _ ih =>
    rw [List.find?_cons, List.find?_cons, ← names h h' first]
    cases isNamed : named h with
    | true => exact congrArg some (views h h' first isNamed).symm
    | false => exact ih

theorem equalIgnoringCase_congr {s t : List Char} (same : SameLetters s t) (name : List Char) :
    equalIgnoringCase s name = equalIgnoringCase t name := by
  have lower := (equalIgnoringCase_iff s t).mpr same
  rw [equalIgnoringCase, beq_iff_eq] at lower
  rw [equalIgnoringCase, equalIgnoringCase, lower]

variable {headers others : List HeaderField} (status : Nat)

/-- However a response is written, as much can be seen of the first header with a name that is asked
for as blanks around tokens leave to be seen. -/
theorem Rewritten.map_header?_eq {β : Type} (rewritten : Rewritten headers others) {name : String}
    (isAsked : name ∈ askedFor) (view : List Char → β)
    (views : ∀ h h', TokensPadded h h' → equalIgnoringCase h.1.toList name.toList →
      view (trimBlanks h.2.toList) = view (trimBlanks h'.2.toList)) :
    (header? ⟨status, others⟩ name).map view = (header? ⟨status, headers⟩ name).map view := by
  simp only [header?, Option.map_map]
  cases rewritten with
  | recase same =>
    refine map_find?_of_forall₂ same (fun h h' alike => equalIgnoringCase_congr alike.1 _) ?_
    intro h h' alike _
    rw [Function.comp_apply, Function.comp_apply, alike.2]
  | pad same =>
    refine map_find?_of_forall₂ same (fun h h' alike => by rw [alike.1]) ?_
    intro h h' alike _
    rw [Function.comp_apply, Function.comp_apply, alike.2.trimBlanks_eq]
  | padTokens same =>
    refine map_find?_of_forall₂ same (fun h h' alike => by rw [alike.1]) ?_
    -- Here alone the trimmed value may differ, and the view has to make up for it.
    rintro h h' ⟨_, equal | padded⟩ isNamed
    · rw [Function.comp_apply, Function.comp_apply, equal]
    · exact views h h' padded isNamed
  | add before header after foreign =>
    have other : equalIgnoringCase header.1.toList name.toList = false := by
      rw [← Bool.not_eq_true, equalIgnoringCase_iff]
      exact foreign name isAsked
    rw [List.find?_append, List.find?_append, List.find?_cons, other]
  | reorder same order => rw [← List.head?_filter, ← List.head?_filter, order name]

theorem Rewritten.header?_eq (rewritten : Rewritten headers others) (name : String)
    (isAsked : name ∈ askedFor)
    (other : equalIgnoringCase "connection".toList name.toList = false) :
    header? ⟨status, others⟩ name = header? ⟨status, headers⟩ name := by
  have same := rewritten.map_header?_eq status isAsked id ?_
  · simpa only [Option.map_id_fun, id] using same
  · intro h h' padded isNamed
    rw [equalIgnoringCase_congr padded.1, other] at isNamed
    cases isNamed

theorem Rewritten.map_tokens_eq (rewritten : Rewritten headers others) :
    (header? ⟨status, others⟩ "connection").map tokens =
      (header? ⟨status, headers⟩ "connection").map tokens := by
  refine rewritten.map_header?_eq status (by simp [askedFor]) tokens fun h h' padded _ => ?_
  simp only [tokens, map_trimBlanks_splitOn_trimBlanks, map_trimBlanks_of_padded padded.2]

theorem Rewritten.validate_eq_ok_iff (rewritten : Rewritten headers others) (key : HandshakeKey) :
    validate ⟨status, others⟩ key = .ok () ↔ validate ⟨status, headers⟩ key = .ok () := by
  have upgrade := rewritten.header?_eq status "upgrade" (by simp [askedFor]) (by decide +kernel)
  have accept := rewritten.header?_eq status "sec-websocket-accept" (by simp [askedFor])
    (by decide +kernel)
  have connection := rewritten.map_tokens_eq status
  rw [UpgradeResponse.validate_eq_ok_iff, UpgradeResponse.validate_eq_ok_iff, flaw?_eq_none_iff,
    flaw?_eq_none_iff, upgrade, accept, connection]

/-- Neighbours with different names may change places. -/
theorem Rewritten.swap (before after : List HeaderField) {first second : HeaderField}
    (differ : ¬SameLetters first.1.toList second.1.toList) :
    Rewritten (before ++ first :: second :: after) (before ++ second :: first :: after) := by
  refine .reorder ((List.Perm.swap second first after).append_left before) fun name => ?_
  rw [List.filter_append, List.filter_append]
  congr 1
  cases isFirst : equalIgnoringCase first.1.toList name.toList with
  | false => simp only [List.filter_cons, isFirst, Bool.false_eq_true, if_false]
  | true =>
    have notSecond : equalIgnoringCase second.1.toList name.toList = false := by
      by_contra isSecond
      rw [Bool.not_eq_false, equalIgnoringCase, beq_iff_eq] at isSecond
      rw [equalIgnoringCase, beq_iff_eq, ← isSecond] at isFirst
      exact differ ((equalIgnoringCase_iff _ _).mp (beq_iff_eq.mpr isFirst))
    simp only [List.filter_cons, isFirst, notSecond, Bool.false_eq_true, if_false, if_true]

/-- A response is accepted exactly if it completes the handshake, and however often its headers are
written in another way, or back again, it stays accepted or refused. -/
theorem validate_exactly (response : UpgradeResponse) (key : HandshakeKey) :
    (response.validate key = .ok () ↔ response.Completes key) ∧
    ∀ headers, Relation.EqvGen Rewritten response.headers headers →
      (validate { response with headers } key = .ok () ↔ response.validate key = .ok ()) := by
  refine ⟨response.validate_eq_ok_iff_completes key, fun headers rewritten => ?_⟩
  obtain ⟨status, original⟩ := response
  change Relation.EqvGen Rewritten original headers at rewritten
  induction rewritten with
  | rel _ _ once => exact once.validate_eq_ok_iff status key
  | refl _ => exact Iff.rfl
  | symm _ _ _ ih => exact ih.symm
  | trans _ _ _ _ _ first second => exact second.trans first

/-- A response that completes its handshake, written in two ways. -/
theorem validate_exactly_twice :
    let key : HandshakeKey := ⟨"dGhlIHNhbXBsZSBub25jZQ=="⟩
    let accept := ("Sec-WebSocket-Accept", "s3pPLMBiTxaQ9kYGzzhZRbK+xOo=")
    let response : UpgradeResponse :=
      { status := 101
        headers := [("Upgrade", "websocket"), ("Connection", "keep-alive,Upgrade"), accept] }
    let headers :=
      [("CONNECTION", "keep-alive,\u2003Upgrade "), ("Server", "s"), ("upgrade", "\twebsocket"),
        accept]
    Relation.EqvGen Rewritten response.headers headers ∧ response.Completes key ∧
      validate { response with headers } key = .ok () := by
  intro key accept response headers
  have swapped : Rewritten response.headers
      [("Connection", "keep-alive,Upgrade"), ("Upgrade", "websocket"), accept] :=
    .swap [] [accept] (by rw [← equalIgnoringCase_iff]; decide +kernel)
  have cased : Rewritten [("Connection", "keep-alive,Upgrade"), ("Upgrade", "websocket"), accept]
      [("CONNECTION", "keep-alive,Upgrade"), ("upgrade", "websocket"), accept] := by
    refine .recase (.cons ⟨?_, rfl⟩ (.cons ⟨?_, rfl⟩ (.cons ⟨?_, rfl⟩ .nil))) <;>
      exact (equalIgnoringCase_iff _ _).mp (by decide +kernel)
  have options : Rewritten
      [("CONNECTION", "keep-alive,Upgrade"), ("upgrade", "websocket"), accept]
      [("CONNECTION", "keep-alive,\u2003Upgrade "), ("upgrade", "websocket"), accept] := by
    have pieces : "keep-alive,Upgrade".toList.splitOn ',' =
        ["keep-alive".toList, "Upgrade".toList] := by decide +kernel
    have padded : "keep-alive,\u2003Upgrade ".toList.splitOn ',' =
        ["keep-alive".toList, "\u2003Upgrade ".toList] := by decide +kernel
    refine .padTokens
      (.cons ⟨rfl, .inr ⟨?_, ?_⟩⟩ (.cons ⟨rfl, .inl rfl⟩ (.cons ⟨rfl, .inl rfl⟩ .nil)))
    · exact (equalIgnoringCase_iff _ _).mp (by decide +kernel)
    · show List.Forall₂ Padded ("keep-alive,Upgrade".toList.splitOn ',')
        ("keep-alive,\u2003Upgrade ".toList.splitOn ',')
      rw [pieces, padded]
      exact .cons (.refl _)
        (.cons ⟨['\u2003'], [' '], by decide +kernel, List.forall_mem_singleton.mpr (by decide),
          List.forall_mem_singleton.mpr (by decide)⟩ .nil)
  have blank : Rewritten
      [("CONNECTION", "keep-alive,\u2003Upgrade "), ("upgrade", "websocket"), accept]
      [("CONNECTION", "keep-alive,\u2003Upgrade "), ("upgrade", "\twebsocket"), accept] :=
    .pad (.cons ⟨rfl, .refl _⟩
      (.cons ⟨rfl, ['\t'], [], by decide +kernel, List.forall_mem_singleton.mpr (by decide),
          List.forall_mem_nil _⟩
        (.cons ⟨rfl, .refl _⟩ .nil)))
  have more : Rewritten
      [("CONNECTION", "keep-alive,\u2003Upgrade "), ("upgrade", "\twebsocket"), accept]
      headers := by
    refine .add [("CONNECTION", "keep-alive,\u2003Upgrade ")] ("Server", "s")
      [("upgrade", "\twebsocket"), accept] ?_
    simp only [← equalIgnoringCase_iff]
    decide +kernel
  have rewritten : Relation.EqvGen Rewritten response.headers headers :=
    .trans _ _ _ (.rel _ _ swapped) (.trans _ _ _ (.rel _ _ cased) (.trans _ _ _ (.rel _ _ options)
      (.trans _ _ _ (.rel _ _ blank) (.rel _ _ more))))
  have accepted : response.validate key = .ok () := by decide +kernel
  obtain ⟨exactly, alike⟩ := response.validate_exactly key
  exact ⟨rewritten, exactly.mp accepted, (alike headers rewritten).mpr accepted⟩

end UpgradeResponse

end WebSocket
