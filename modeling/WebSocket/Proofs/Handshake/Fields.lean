import Mathlib.Data.List.Forall2
import Mathlib.Data.List.TakeWhile
import WebSocket.Handshake

/-!
# Texts in header fields

What counts as the same text in a header field, said without the functions that compare and cut:
letters in either case (`SameLetters`), what is left without the blanks at the ends (`Trimmed`).
Blanks that are added at the ends of a text, or of the pieces between its commas (`Padded`), are
taken away again.
-/

namespace WebSocket

/-! ### Letters in either case -/

/-- The same character, or the same letter of A to Z in the other case. -/
def SameLetter (c d : Char) : Prop :=
  c = d ∨ (c.isUpper ∧ d.toNat = c.toNat + 32) ∨ (d.isUpper ∧ c.toNat = d.toNat + 32)

def SameLetters (s t : List Char) : Prop := List.Forall₂ SameLetter s t

theorem isUpper_iff (c : Char) : c.isUpper ↔ 65 ≤ c.toNat ∧ c.toNat ≤ 90 := by
  show decide (65 ≤ c.val ∧ c.val ≤ 90) = true ↔ _
  simp only [decide_eq_true_eq, UInt32.le_iff_toNat_le]
  rfl

theorem toNat_toLower (c : Char) :
    c.toLower.toNat = if c.isUpper then c.toNat + 32 else c.toNat := by
  by_cases upper : c.val ≥ 'A'.val ∧ c.val ≤ 'Z'.val
  · have isUpper : c.isUpper := decide_eq_true upper
    have range := (isUpper_iff c).mp isUpper
    have moved : c.toLower.val = c.val + 32 := congrArg Char.val (dif_pos upper)
    have small : c.val.toNat ≤ 90 := range.2
    rw [if_pos isUpper, Char.toNat, moved, UInt32.toNat_add]
    exact Nat.mod_eq_of_lt (by simp only [UInt32.reduceToNat]; omega)
  · have notUpper : ¬c.isUpper := fun isUpper => upper (of_decide_eq_true isUpper)
    have same : c.toLower = c := dif_neg upper
    rw [if_neg notUpper, same]

theorem toLower_eq_iff (c d : Char) : c.toLower = d.toLower ↔ SameLetter c d := by
  have upperC := isUpper_iff c
  have upperD := isUpper_iff d
  rw [SameLetter, ← Char.toNat_inj, ← Char.toNat_inj, toNat_toLower, toNat_toLower]
  by_cases c.isUpper <;> by_cases d.isUpper <;> simp_all <;> omega

theorem equalIgnoringCase_iff (s t : List Char) :
    equalIgnoringCase s t ↔ SameLetters s t := by
  rw [equalIgnoringCase, beq_iff_eq, SameLetters, ← List.forall₂_eq_eq_eq,
    List.forall₂_map_left_iff, List.forall₂_map_right_iff]
  simp only [toLower_eq_iff]

/-! ### Blanks at the ends -/

/-- What is left of a text without the blanks at its ends. -/
def Trimmed (text core : List Char) : Prop :=
  ∃ before after, text = before ++ core ++ after ∧
    (∀ c ∈ before, isBlank c) ∧ (∀ c ∈ after, isBlank c) ∧
    (∀ c ∈ core.head?, ¬isBlank c) ∧ ∀ c ∈ core.getLast?, ¬isBlank c

theorem dropWhile_eq_self_of_head? {p : Char → Bool} {text : List Char}
    (head : ∀ c ∈ text.head?, ¬p c) : text.dropWhile p = text := by
  cases text with
  | nil => rfl
  | cons c rest => exact List.dropWhile_cons_of_neg (head c rfl)

theorem trimBlanks_append_left {before : List Char} (blank : ∀ c ∈ before, isBlank c)
    (text : List Char) : trimBlanks (before ++ text) = trimBlanks text := by
  rw [trimBlanks, List.dropWhile_append_of_pos blank, trimBlanks]

theorem trimBlanks_append_right {after : List Char} (blank : ∀ c ∈ after, isBlank c)
    (text : List Char) : trimBlanks (text ++ after) = trimBlanks text := by
  have reversed : ∀ c ∈ after.reverse, isBlank c := fun c isIn =>
    blank c (List.mem_reverse.mp isIn)
  have none : after.dropWhile isBlank = [] := List.dropWhile_eq_nil_iff.mpr blank
  rw [trimBlanks, List.dropWhile_append, trimBlanks]
  split
  · rename_i nothing
    rw [none, List.isEmpty_iff.mp nothing]
  · rw [List.reverse_append, List.dropWhile_append_of_pos reversed]

theorem trimBlanks_of_core {core : List Char} (head : ∀ c ∈ core.head?, ¬isBlank c)
    (last : ∀ c ∈ core.getLast?, ¬isBlank c) : trimBlanks core = core := by
  have reversed : ∀ c ∈ core.reverse.head?, ¬isBlank c := by rwa [List.head?_reverse]
  rw [trimBlanks, dropWhile_eq_self_of_head? head, dropWhile_eq_self_of_head? reversed,
    List.reverse_reverse]

theorem not_blank_of_head?_dropWhile (text : List Char) :
    ∀ c ∈ (text.dropWhile isBlank).head?, ¬isBlank c := by
  intro c isHead
  have first := List.head?_dropWhile_not isBlank text
  rw [Option.mem_def.mp isHead] at first
  simpa using first

theorem trimmed_trimBlanks (text : List Char) : Trimmed text (trimBlanks text) := by
  let rest := text.dropWhile isBlank
  let after := (rest.reverse.takeWhile isBlank).reverse
  have cut : rest = trimBlanks text ++ after := by
    have whole := congrArg List.reverse
      (List.takeWhile_append_dropWhile (p := isBlank) (l := rest.reverse))
    rw [List.reverse_append, List.reverse_reverse] at whole
    exact whole.symm
  refine ⟨text.takeWhile isBlank, after, ?_, fun c isIn => ?_, fun c isIn => ?_, ?_, ?_⟩
  · rw [List.append_assoc, ← cut, List.takeWhile_append_dropWhile]
  · exact List.mem_takeWhile_imp isIn
  · exact List.mem_takeWhile_imp (List.mem_reverse.mp isIn)
  · intro c isHead
    have front : c ∈ rest.head? := by
      rw [cut, List.head?_append, Option.mem_def.mp isHead]
      rfl
    exact not_blank_of_head?_dropWhile text c front
  · intro c isLast
    rw [trimBlanks, List.getLast?_reverse] at isLast
    exact not_blank_of_head?_dropWhile rest.reverse c isLast

theorem trimBlanks_eq_iff (text core : List Char) :
    trimBlanks text = core ↔ Trimmed text core := by
  refine ⟨fun same => same ▸ trimmed_trimBlanks text, ?_⟩
  rintro ⟨before, after, rfl, blankBefore, blankAfter, head, last⟩
  rw [trimBlanks_append_right blankAfter, trimBlanks_append_left blankBefore,
    trimBlanks_of_core head last]

/-! ### Blanks around a text -/

/-- A text with more blanks at its ends. -/
def Padded (text padded : List Char) : Prop :=
  ∃ before after, padded = before ++ text ++ after ∧
    (∀ c ∈ before, isBlank c) ∧ ∀ c ∈ after, isBlank c

theorem Padded.refl (text : List Char) : Padded text text :=
  ⟨[], [], (List.append_nil text).symm, List.forall_mem_nil _, List.forall_mem_nil _⟩

theorem Padded.trimBlanks_eq {text padded : List Char} (h : Padded text padded) :
    trimBlanks padded = trimBlanks text := by
  obtain ⟨before, after, rfl, blankBefore, blankAfter⟩ := h
  rw [trimBlanks_append_right blankAfter, trimBlanks_append_left blankBefore]

theorem Padded.cons_left {text padded : List Char} {c : Char} (blank : isBlank c)
    (h : Padded text padded) : Padded text (c :: padded) := by
  obtain ⟨before, after, rfl, blankBefore, blankAfter⟩ := h
  refine ⟨c :: before, after, rfl, fun d isIn => ?_, blankAfter⟩
  rcases List.mem_cons.mp isIn with rfl | isIn
  · exact blank
  · exact blankBefore d isIn

theorem map_trimBlanks_of_padded {texts padded : List (List Char)}
    (h : List.Forall₂ Padded texts padded) : padded.map trimBlanks = texts.map trimBlanks := by
  induction h with
  | nil => rfl
  | cons first _ ih => rw [List.map_cons, List.map_cons, first.trimBlanks_eq, ih]

/-! ### Texts between commas -/

theorem splitCommas_eq_splitOn (text : List Char) : splitCommas text = text.splitOn ',' := by
  induction text with
  | nil => rfl
  | cons c rest ih =>
    rw [List.splitOn_cons_eq_if_modifyHead, splitCommas, ih]
    cases pieces : rest.splitOn ',' with
    | nil => exact absurd pieces (List.splitOn_ne_nil ',' rest)
    | cons piece later => simp only [beq_iff_eq, List.modifyHead_cons]

theorem ne_comma_of_isBlank {c : Char} (blank : isBlank c) : c ≠ ',' := by
  rintro rfl
  exact absurd blank (by decide)

theorem forall₂_modifyHead {R : List Char → List Char → Prop} {f g : List Char → List Char}
    {texts others : List (List Char)} (h : List.Forall₂ R texts others)
    (heads : ∀ text other, R text other → R (f text) (g other)) :
    List.Forall₂ R (texts.modifyHead f) (others.modifyHead g) := by
  cases h with
  | nil => exact .nil
  | cons head tail => exact .cons (heads _ _ head) tail

theorem padded_splitOn_append_left {before : List Char} (blank : ∀ c ∈ before, isBlank c)
    (text : List Char) :
    List.Forall₂ Padded (text.splitOn ',') ((before ++ text).splitOn ',') := by
  induction before with
  | nil => exact List.forall₂_same.mpr fun piece _ => ⟨[], [], by simp⟩
  | cons c before ih =>
    have first := blank c List.mem_cons_self
    have later := ih fun d isIn => blank d (List.mem_cons_of_mem c isIn)
    have grown := forall₂_modifyHead (f := id) later fun _ _ padded => padded.cons_left first
    rw [List.modifyHead_id, id] at grown
    rw [List.cons_append, List.splitOn_cons_eq_if_modifyHead,
      if_neg (by simpa using ne_comma_of_isBlank first)]
    exact grown

theorem padded_splitOn_append_right {after : List Char} (blank : ∀ c ∈ after, isBlank c)
    (text : List Char) :
    List.Forall₂ Padded (text.splitOn ',') ((text ++ after).splitOn ',') := by
  let Longer (piece longer : List Char) : Prop := longer = piece ∨ longer = piece ++ after
  have longer : List.Forall₂ Longer (text.splitOn ',') ((text ++ after).splitOn ',') := by
    induction text with
    | nil =>
      have noComma : ',' ∉ after := fun isIn => ne_comma_of_isBlank (blank ',' isIn) rfl
      rw [List.nil_append, List.splitOn_nil, List.splitOn_eq_singleton noComma]
      exact .cons (.inr rfl) .nil
    | cons c rest ih =>
      rw [List.cons_append, List.splitOn_cons_eq_if_modifyHead, List.splitOn_cons_eq_if_modifyHead]
      split
      · exact .cons (.inl rfl) ih
      · exact forall₂_modifyHead ih fun piece other => Or.imp (congrArg _) (congrArg _)
  refine longer.imp fun piece other => ?_
  rintro (rfl | rfl)
  · exact ⟨[], [], by simp⟩
  · exact ⟨[], after, by simp, by simp, blank⟩

/-- Whether the ends are trimmed before a text is cut or only afterwards makes no difference. -/
theorem map_trimBlanks_splitOn_trimBlanks (text : List Char) :
    ((trimBlanks text).splitOn ',').map trimBlanks = (text.splitOn ',').map trimBlanks := by
  obtain ⟨before, after, cut, blankBefore, blankAfter, -⟩ := trimmed_trimBlanks text
  have left := map_trimBlanks_of_padded
    (padded_splitOn_append_left blankBefore (trimBlanks text))
  have right := map_trimBlanks_of_padded
    (padded_splitOn_append_right blankAfter (before ++ trimBlanks text))
  rw [← left, ← right, ← cut]

end WebSocket
