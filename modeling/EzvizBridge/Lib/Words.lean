import Mathlib.Data.List.Chain
import Mathlib.Data.List.Infix
import Mathlib.Tactic.Common

/-!
# Words

The words of a text are its longest runs without a separator (`words`). Words are joined by one
space each (`join`), and a joined text has the words that it was joined from (`words_join`).

What has no space in it and occurs in a joined text occurs in one of its words (`infix_join`).

A joined text is `Tidy`. If it is cut off, the rest is a joined text again, unless the cut comes
right behind a space (`take_join`): then, and only then, it is not tidy any more.
-/

namespace Words

variable {α : Type*}

/-- The longest runs without a separator. -/
def words (separates : α → Bool) (text : List α) : List (List α) :=
  (text.splitOnP separates).filter fun part => !part.isEmpty

/-- The words with one space between each two. -/
def join (space : α) (list : List (List α)) : List α := [space].intercalate list

/-- Words that have something in them, and no separator. -/
def Proper (separates : α → Bool) (list : List (List α)) : Prop :=
  ∀ word ∈ list, word ≠ [] ∧ ∀ a ∈ word, separates a = false

/-- A space is the only separator, and there is none next to a space or at either end. -/
structure Tidy (separates : α → Bool) (space : α) (text : List α) : Prop where
  only : ∀ a ∈ text, separates a = true → a = space
  single : ¬[space, space] <:+: text
  head : text.head? ≠ some space
  last : text.getLast? ≠ some space

variable {separates : α → Bool} {space : α} {word text : List α} {list front back : List (List α)}

theorem Proper.cons (h : Proper separates list) (hword : word ≠ [])
    (hfree : ∀ a ∈ word, separates a = false) : Proper separates (word :: list) :=
  List.forall_mem_cons.mpr ⟨⟨hword, hfree⟩, h⟩

theorem free_of_any (h : word.any separates = false) : ∀ a ∈ word, separates a = false := by
  simpa using h

theorem proper_of_all (h : (list.all fun word => !word.isEmpty && !word.any separates) = true) :
    Proper separates list := by
  intro word hword
  have hboth := List.all_eq_true.mp h word hword
  rw [Bool.and_eq_true, Bool.not_eq_true', Bool.not_eq_true'] at hboth
  exact ⟨by simpa using hboth.1, free_of_any hboth.2⟩

theorem free_of_mem_splitOnP {part : List α} (h : part ∈ text.splitOnP separates) :
    ∀ a ∈ part, separates a = false := by
  induction text generalizing part with
  | nil =>
    rw [List.splitOnP_nil, List.mem_singleton] at h
    subst h
    exact List.forall_mem_nil _
  | cons first text ih =>
    rw [List.splitOnP_cons_eq_if_modifyHead] at h
    split_ifs at h with hfirst
    · obtain rfl | h := List.mem_cons.mp h
      · exact List.forall_mem_nil _
      · exact ih h
    · obtain ⟨head, tail, heq⟩ := List.exists_cons_of_ne_nil (List.splitOnP_ne_nil separates text)
      rw [heq] at h ih
      obtain rfl | h := List.mem_cons.mp h
      · rw [List.forall_mem_cons]
        exact ⟨by simpa using hfirst, ih List.mem_cons_self⟩
      · exact ih (List.mem_cons_of_mem head h)

theorem proper_words (text : List α) : Proper separates (words separates text) := by
  intro word hword
  obtain ⟨hpart, hne⟩ := List.mem_filter.mp hword
  refine ⟨?_, free_of_mem_splitOnP hpart⟩
  rintro rfl
  exact nomatch hne

/-! ### Joining -/

theorem join_singleton : join space [word] = word := List.intercalate_singleton

theorem join_cons (hlist : list ≠ []) :
    join space (word :: list) = word ++ space :: join space list := by
  obtain ⟨next, rest, rfl⟩ := List.exists_cons_of_ne_nil hlist
  rw [join, List.intercalate_cons_cons, List.append_assoc]
  rfl

theorem join_append (hfront : front ≠ []) (hback : back ≠ []) :
    join space (front ++ back) = join space front ++ space :: join space back := by
  induction front with
  | nil => exact absurd rfl hfront
  | cons word front ih =>
    by_cases hnil : front = []
    · rw [hnil, List.singleton_append, join_cons hback, join_singleton]
    · rw [List.cons_append, join_cons (List.append_ne_nil_of_left_ne_nil hnil back), ih hnil,
        join_cons hnil, List.append_assoc, List.cons_append]

theorem join_ne_nil (h : Proper separates list) (hlist : list ≠ []) : join space list ≠ [] := by
  obtain ⟨word, rest, rfl⟩ := List.exists_cons_of_ne_nil hlist
  have hword : word ≠ [] := (h word List.mem_cons_self).1
  by_cases hnil : rest = []
  · rw [hnil, join_singleton]
    exact hword
  · rw [join_cons hnil]
    exact List.append_ne_nil_of_left_ne_nil hword _

theorem words_of_free (hword : word ≠ []) (hfree : ∀ a ∈ word, separates a = false) :
    words separates word = [word] := by
  rw [words, List.splitOnP_eq_singleton hfree, List.filter_cons_of_pos (by simpa using hword)]
  rfl

theorem words_append_cons (hspace : separates space = true) (hword : word ≠ [])
    (hfree : ∀ a ∈ word, separates a = false) (rest : List α) :
    words separates (word ++ space :: rest) = word :: words separates rest := by
  rw [words, List.splitOnP_append_cons _ _ hspace, List.splitOnP_eq_singleton hfree,
    List.singleton_append, List.filter_cons_of_pos (by simpa using hword)]
  rfl

/-- **A joined text has the words that it was joined from.** -/
theorem words_join (hspace : separates space = true) (h : Proper separates list) :
    words separates (join space list) = list := by
  induction list with
  | nil => rfl
  | cons word list ih =>
    obtain ⟨⟨hword, hfree⟩, hrest⟩ := List.forall_mem_cons.mp h
    by_cases hnil : list = []
    · rw [hnil, join_singleton]
      exact words_of_free hword hfree
    · rw [join_cons hnil, words_append_cons hspace hword hfree, ih hrest]

/-! ### What occurs in a text -/

/-- What does not contain `s` cannot lie across it. -/
theorem infix_append_cons {part a b : List α} {s : α} (hs : s ∉ part) (h : part <:+: a ++ s :: b) :
    part <:+: a ∨ part <:+: b := by
  obtain ⟨x, y, hsplit⟩ := h
  rw [List.append_assoc] at hsplit
  rcases List.append_eq_append_iff.mp hsplit with ⟨c, rfl, htail⟩ | ⟨c, rfl, htail⟩
  · rcases List.append_eq_append_iff.mp htail with ⟨d, rfl, -⟩ | ⟨d, rfl, hrest⟩
    · exact .inl ⟨x, d, by rw [List.append_assoc]⟩
    · cases d with
      | nil => exact .inl ⟨x, [], by simp⟩
      | cons first d =>
        obtain ⟨rfl, -⟩ := List.cons.inj hrest
        exact absurd (List.mem_append_right _ List.mem_cons_self) hs
  · cases c with
    | nil =>
      cases part with
      | nil => exact .inl (List.nil_infix)
      | cons first part =>
        obtain ⟨rfl, -⟩ := List.cons.inj htail
        exact absurd List.mem_cons_self hs
    | cons first c =>
      obtain ⟨-, rfl⟩ := List.cons.inj htail
      exact .inr ⟨c, y, List.append_assoc _ _ _⟩

/-- **What occurs in a joined text** occurs in a word. -/
theorem infix_join {part : List α} (hspace : space ∉ part) (hpart : part ≠ [])
    (h : part <:+: join space list) : ∃ word ∈ list, part <:+: word := by
  induction list with
  | nil => exact absurd (List.infix_nil.mp h) hpart
  | cons word list ih =>
    by_cases hnil : list = []
    · rw [hnil, join_singleton] at h
      exact ⟨word, List.mem_cons_self, h⟩
    · rw [join_cons hnil] at h
      rcases infix_append_cons hspace h with hword | hrest
      · exact ⟨word, List.mem_cons_self, hword⟩
      · obtain ⟨found, hmem, hfound⟩ := ih hrest
        exact ⟨found, List.mem_cons_of_mem _ hmem, hfound⟩

/-! ### Tidy texts -/

/-- A joined text starts with a word. -/
theorem head_free (h : Proper separates list) :
    ∀ a ∈ (join space list).head?, separates a = false := by
  cases list with
  | nil => exact fun _ ha => nomatch ha
  | cons word list =>
    obtain ⟨⟨hword, hfree⟩, -⟩ := List.forall_mem_cons.mp h
    obtain ⟨first, rest, rfl⟩ := List.exists_cons_of_ne_nil hword
    have hhead : (join space ((first :: rest) :: list)).head? = some first := by
      by_cases hnil : list = []
      · rw [hnil, join_singleton]
        rfl
      · rw [join_cons hnil]
        rfl
    rw [hhead]
    intro a ha
    obtain rfl := Option.some.inj ha
    exact hfree _ List.mem_cons_self

/-- A joined text ends with a word. -/
theorem last_free (h : Proper separates list) :
    ∀ a ∈ (join space list).getLast?, separates a = false := by
  induction list with
  | nil => exact fun _ ha => nomatch ha
  | cons word list ih =>
    obtain ⟨⟨hword, hfree⟩, hrest⟩ := List.forall_mem_cons.mp h
    by_cases hnil : list = []
    · rw [hnil, join_singleton]
      exact fun a ha => hfree a (List.mem_of_getLast? ha)
    · obtain ⟨first, rest, hjoin⟩ := List.exists_cons_of_ne_nil (join_ne_nil hrest hnil)
      rw [join_cons hnil, hjoin, List.getLast?_append_cons, List.getLast?_cons_cons, ← hjoin]
      exact ih hrest

/-- No two separators are neighbours. -/
theorem isChain_join (h : Proper separates list) :
    (join space list).IsChain fun a b => separates a = false ∨ separates b = false := by
  induction list with
  | nil => exact List.isChain_nil
  | cons word list ih =>
    obtain ⟨⟨hword, hfree⟩, hrest⟩ := List.forall_mem_cons.mp h
    have hchain : word.IsChain fun a b => separates a = false ∨ separates b = false := by
      refine List.Pairwise.isChain (List.pairwise_of_forall_mem_list ?_)
      intro a ha b _
      exact Or.inl (hfree a ha)
    by_cases hnil : list = []
    · rwa [hnil, join_singleton]
    · rw [join_cons hnil, List.isChain_append]
      refine ⟨hchain, ?_, fun a ha _ _ => Or.inl (hfree a (List.mem_of_getLast? ha))⟩
      rw [List.isChain_cons]
      exact ⟨fun a ha => Or.inr (head_free hrest a ha), ih hrest⟩

theorem tidy_join (hspace : separates space = true) (h : Proper separates list) :
    Tidy separates space (join space list) where
  only := by
    induction list with
    | nil => exact List.forall_mem_nil _
    | cons word list ih =>
      obtain ⟨⟨-, hfree⟩, hrest⟩ := List.forall_mem_cons.mp h
      have hword : ∀ a ∈ word, separates a = true → a = space :=
        fun a ha hseparates => nomatch (hfree a ha).symm.trans hseparates
      by_cases hnil : list = []
      · rwa [hnil, join_singleton]
      · rw [join_cons hnil, List.forall_mem_append, List.forall_mem_cons]
        exact ⟨hword, fun _ => rfl, ih hrest⟩
  single := by
    rintro ⟨front, back, hsplit⟩
    have hchain : (join space list).IsChain fun a b => separates a = false ∨ separates b = false :=
      isChain_join h
    rw [← hsplit] at hchain
    -- two spaces side by side would be a step of the chain
    have htwo := hchain.left_of_append.right_of_append
    rw [List.isChain_cons_cons, hspace] at htwo
    obtain htwo | htwo := htwo.1 <;> exact nomatch htwo
  head heq := nomatch hspace.symm.trans (head_free h space heq)
  last heq := nomatch hspace.symm.trans (last_free h space heq)

/-! ### Cuts -/

/-- The cut comes right behind the space between two words. -/
def CutsAtSpace (space : α) (n : ℕ) (list : List (List α)) : Prop :=
  ∃ front back, list = front ++ back ∧ front ≠ [] ∧ back ≠ [] ∧ (join space front).length + 1 = n

/-- **What is left of a joined text** is a joined text, but for a space at its end. -/
theorem take_join (h : Proper separates list) (n : ℕ) :
    (∃ left, Proper separates left ∧ (join space list).take n = join space left) ∨
      CutsAtSpace space n list := by
  induction list generalizing n with
  | nil => exact Or.inl ⟨[], List.forall_mem_nil _, List.take_nil⟩
  | cons word list ih =>
    obtain ⟨⟨hword, hfree⟩, hrest⟩ := List.forall_mem_cons.mp h
    -- the cut inside of the first word
    have hinside : ∀ count, ∃ left, Proper separates left ∧ word.take count = join space left := by
      intro count
      by_cases hnone : word.take count = []
      · exact ⟨[], List.forall_mem_nil _, hnone⟩
      · refine ⟨[word.take count], ?_, join_singleton.symm⟩
        exact Proper.cons (List.forall_mem_nil _) hnone fun a ha =>
          hfree a (List.mem_of_mem_take ha)
    by_cases hnil : list = []
    · rw [hnil, join_singleton]
      exact Or.inl (hinside n)
    rw [join_cons hnil]
    obtain hlt | heq | hgt := lt_trichotomy n (word.length + 1)
    · rw [List.take_append_of_le_length (Nat.le_of_lt_succ hlt)]
      exact Or.inl (hinside n)
    · exact Or.inr ⟨[word], list, rfl, List.cons_ne_nil _ _, hnil, by rw [join_singleton, heq]⟩
    · -- the cut behind the first space
      obtain ⟨more, rfl⟩ := Nat.exists_eq_add_of_lt hgt
      have htake : (word ++ space :: join space list).take (word.length + 1 + more + 1) =
          word ++ space :: (join space list).take (more + 1) := by
        rw [Nat.add_assoc, Nat.add_assoc, List.take_length_add_append, Nat.add_comm 1,
          List.take_succ_cons]
      rw [htake]
      obtain ⟨left, hleft, heq⟩ | ⟨front, back, heq, hfront, hback, hlength⟩ := ih hrest (more + 1)
      · refine Or.inl ⟨word :: left, hleft.cons hword hfree, ?_⟩
        have hne : left ≠ [] := by
          rintro rfl
          have hempty := List.take_eq_nil_iff.mp heq
          exact hempty.elim (Nat.succ_ne_zero more) (join_ne_nil hrest hnil)
        rw [join_cons hne, heq]
      · refine Or.inr ⟨word :: front, back, by
          rw [heq, List.cons_append], List.cons_ne_nil _ _, hback, ?_⟩
        rw [join_cons hfront, List.length_append, List.length_cons, hlength]
        omega

/-- Behind a space it is not tidy. -/
theorem CutsAtSpace.getLast? {n : ℕ} (h : CutsAtSpace space n list) :
    ((join space list).take n).getLast? = some space := by
  obtain ⟨front, back, rfl, hfront, hback, rfl⟩ := h
  have hsplit : join space (front ++ back) = (join space front ++ [space]) ++ join space back := by
    rw [join_append hfront hback, List.append_assoc]
    rfl
  have hlength : (join space front).length + 1 = (join space front ++ [space]).length := by
    rw [List.length_append, List.length_singleton]
  rw [hsplit, hlength, List.take_left, List.getLast?_concat]

end Words
