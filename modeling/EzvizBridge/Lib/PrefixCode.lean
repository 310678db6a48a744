import Mathlib.Data.List.Basic

/-!
# Codes whose words end themselves

A code relates words to what they stand for. `SelfDelimiting` says that the words end themselves: of
two words at the head of one text, neither goes on where the other has ended, and they stand for the
same. A message is a list of words, and its text their concatenation.

A message whose text is the head of another text is the head of its message
(`prefix_of_text_prefix`), so a text can be cut only between two words (`spelled_prefix_iff`).
-/

namespace PrefixCode

variable {α β : Type*}

/-- The words end themselves. -/
structure SelfDelimiting (code : List β → α → Prop) : Prop where
  ne_nil : ∀ {w a}, code w a → w ≠ []
  unique : ∀ {w w' rest rest' a a'}, code w a → code w' a' → w ++ rest = w' ++ rest' →
    w = w' ∧ a = a'

/-- Each word of the message stands for what is beside it. -/
def Spells (code : List β → α → Prop) (message : List (List β × α)) : Prop :=
  ∀ word ∈ message, code word.1 word.2

/-- The words one after the other. -/
def text (message : List (List β × α)) : List β := message.flatMap Prod.fst

variable {code : List β → α → Prop} {message message' : List (List β × α)}

@[simp] theorem text_nil : text ([] : List (List β × α)) = [] := rfl

@[simp] theorem text_cons (word : List β × α) (message : List (List β × α)) :
    text (word :: message) = word.1 ++ text message := rfl

theorem Spells.nil : Spells code [] := fun _ hword => absurd hword List.not_mem_nil

theorem Spells.cons {word : List β × α} (hword : code word.1 word.2) (h : Spells code message) :
    Spells code (word :: message) :=
  List.forall_mem_cons.mpr ⟨hword, h⟩

theorem Spells.sublist (h : Spells code message) (hsub : message'.Sublist message) :
    Spells code message' :=
  fun word hword => h word (hsub.subset hword)

namespace SelfDelimiting

/-- **The head of a text** that is a text itself is that of the first words. -/
theorem prefix_of_text_prefix (h : SelfDelimiting code) (hspells : Spells code message)
    (hspells' : Spells code message') (htext : text message' <+: text message) :
    message' <+: message := by
  induction message' generalizing message with
  | nil => exact List.nil_prefix
  | cons word' message' ih =>
    obtain ⟨hword', hrest'⟩ := List.forall_mem_cons.mp hspells'
    obtain ⟨rest, htext⟩ := htext
    cases message with
    | nil =>
      rw [text_cons, text_nil, List.append_assoc] at htext
      exact absurd (List.append_eq_nil_iff.mp htext).1 (h.ne_nil hword')
    | cons word message =>
      obtain ⟨hword, hrest⟩ := List.forall_mem_cons.mp hspells
      rw [text_cons, text_cons, List.append_assoc] at htext
      -- the first words are the same, and the rest follows by induction
      obtain ⟨hfst, hsnd⟩ := h.unique hword' hword htext
      obtain rfl : word' = word := Prod.ext hfst hsnd
      rw [List.prefix_cons_inj]
      exact ih hrest hrest' ⟨rest, List.append_cancel_left htext⟩

/-- **A text is cut between two words**, or what is in front of the cut is no text. -/
theorem spelled_prefix_iff (h : SelfDelimiting code) (hspells : Spells code message)
    {front : List β} (hfront : front <+: text message) :
    (∃ message', Spells code message' ∧ text message' = front) ↔
      ∃ k, front = text (message.take k) := by
  constructor
  · rintro ⟨message', hspells', rfl⟩
    have htake := List.prefix_iff_eq_take.mp (h.prefix_of_text_prefix hspells hspells' hfront)
    exact ⟨message'.length, congrArg text htake⟩
  · rintro ⟨k, rfl⟩
    exact ⟨message.take k, hspells.sublist (List.take_sublist k message), rfl⟩

end SelfDelimiting

end PrefixCode
