import Mathlib.Data.List.Basic
import Mathlib.Tactic.Common

/-!
# Programs that ask

A program asks a question, and how it goes on depends on the answer. `Reaches` is a run of it so
far; `Keeps` is a rule about what it may ask, in view of what it has asked and been told before,
with what it returns in the end. The rules for `Keeps` follow the program, and `Keeps.reaches` is
what they are for.
-/

namespace Asking

inductive Prog (ρ υ α : Type)
  | done (a : α)
  | ask (question : ρ) (next : υ → Prog ρ υ α)

variable {ρ υ α β E : Type}

namespace Prog

def bind : Prog ρ υ α → (α → Prog ρ υ β) → Prog ρ υ β
  | .done a, f => f a
  | .ask question next, f => .ask question fun answer => (next answer).bind f

instance : Monad (Prog ρ υ) where
  pure := .done
  bind := bind

/-- What the program asks next. -/
def question? : Prog ρ υ α → Option ρ
  | .done _ => none
  | .ask question _ => some question

/-- The program when every question is answered by `answer`. -/
def answered (answer : ρ → υ) : Prog ρ υ α → α
  | .done a => a
  | .ask question next => (next (answer question)).answered answer

theorem answered_bind (answer : ρ → υ) (x : Prog ρ υ α) (f : α → Prog ρ υ β) :
    (x.bind f).answered answer = (f (x.answered answer)).answered answer := by
  induction x with
  | done a => rfl
  | ask question next ih => exact ih (answer question)

end Prog

/-- The program has asked and been told this, and goes on as `rest`. -/
inductive Reaches : Prog ρ υ α → List (ρ × υ) → Prog ρ υ α → Prop
  | here (p : Prog ρ υ α) : Reaches p [] p
  | ask {question : ρ} {next : υ → Prog ρ υ α} {answer : υ} {told : List (ρ × υ)}
    {rest : Prog ρ υ α} (h : Reaches (next answer) told rest) :
    Reaches (.ask question next) ((question, answer) :: told) rest

variable {p rest : Prog ρ υ α} {told before : List (ρ × υ)}

/-- One more answer. -/
theorem Reaches.concat {question : ρ} {next : υ → Prog ρ υ α}
    (h : Reaches p told (.ask question next)) (answer : υ) :
    Reaches p (told ++ [(question, answer)]) (next answer) := by
  generalize hrest : Prog.ask question next = rest at h
  induction h with
  | here p =>
    subst hrest
    exact .ask (.here _)
  | ask _ ih => exact .ask (ih hrest)

/-! ### What a program may ask -/

/-- From what it has been told before, the program asks what is allowed, and returns what `Q`
says. -/
def Keeps (Allowed : List (ρ × υ) → ρ → Prop) (Q : List (ρ × υ) → α → Prop)
    (before : List (ρ × υ)) :
    Prog ρ υ α → Prop
  | .done a => Q before a
  | .ask question next =>
    Allowed before question ∧
      ∀ answer, Keeps Allowed Q (before ++ [(question, answer)]) (next answer)

variable {Allowed : List (ρ × υ) → ρ → Prop} {Q : List (ρ × υ) → α → Prop}
  {R : List (ρ × υ) → β → Prop}
  {x : Prog ρ υ α} {f : α → Prog ρ υ β}

theorem Keeps.bind (hx : Keeps Allowed Q before x)
    (hf : ∀ told a, Q told a → Keeps Allowed R told (f a)) :
    Keeps Allowed R before (x.bind f) := by
  induction x generalizing before with
  | done a => exact hf before a hx
  | ask question next ih => exact ⟨hx.1, fun answer => ih answer (hx.2 answer)⟩

/-- **Whatever has been answered, the next question is allowed, and what is returned is as
promised.** -/
theorem Keeps.reaches (h : Keeps Allowed Q before p) (hrun : Reaches p told rest) :
    (∀ earlier question answer later, told = earlier ++ (question, answer) :: later →
      Allowed (before ++ earlier) question) ∧ Keeps Allowed Q (before ++ told) rest := by
  induction hrun generalizing before with
  | here p =>
    refine ⟨fun earlier question answer later hsplit => ?_, by rwa [List.append_nil]⟩
    exact absurd hsplit.symm (List.append_ne_nil_of_right_ne_nil _ (List.cons_ne_nil _ _))
  | @ask question next answer told rest _ ih =>
    obtain ⟨hallowed, hnext⟩ := h
    obtain ⟨hlater, hrest⟩ := ih (hnext answer)
    refine ⟨fun earlier question' answer' later hsplit => ?_, by rwa [List.append_cons]⟩
    cases earlier with
    | nil =>
      obtain ⟨hpair, -⟩ := List.cons.inj hsplit
      obtain ⟨rfl, -⟩ := Prod.mk.inj hpair
      rwa [List.append_nil]
    | cons first earlier =>
      obtain ⟨rfl, htail⟩ := List.cons.inj hsplit
      have hasked := hlater earlier question' answer' later htail
      rwa [List.append_assoc] at hasked

/-! ### Programs that may fail -/

/-- A program that returns a value or an error. -/
abbrev Fallible (ρ υ E α : Type) := ExceptT E (Prog ρ υ) α

/-- Ask, and read the answer. -/
def Fallible.ask (question : ρ) (read : υ → Except E α) : Fallible ρ υ E α :=
  ExceptT.mk (.ask question fun answer => .done (read answer))

/-- The program goes on with the value. -/
theorem answered_andThen {answer : ρ → υ} {x : Fallible ρ υ E α} {f : α → Fallible ρ υ E β} {a : α}
    (h : x.run.answered answer = .ok a) :
    (x >>= f).run.answered answer = (f a).run.answered answer := by
  show (x.run.bind _).answered answer = _
  rw [Prog.answered_bind, h]
  rfl

/-- `Q` if there is a value. -/
def Ok (Q : List (ρ × υ) → α → Prop) (told : List (ρ × υ)) : Except E α → Prop
  | .ok a => Q told a
  | .error _ => True

section Fallible

variable {x : Fallible ρ υ E α} {f : α → Fallible ρ υ E β}

theorem Keeps.andThen (hx : Keeps Allowed (Ok Q) before x.run)
    (hf : ∀ told a, Q told a → Keeps Allowed (Ok R) told (f a).run) :
    Keeps Allowed (Ok R) before (x >>= f).run := by
  refine Keeps.bind hx fun told result hresult => ?_
  cases result with
  | ok a => exact hf told a hresult
  | error error => exact trivial

theorem Keeps.ask {question : ρ} {read : υ → Except E α} (h : Allowed before question)
    (hread : ∀ answer a, read answer = .ok a → Q (before ++ [(question, answer)]) a) :
    Keeps Allowed (Ok Q) before (Fallible.ask question read).run := by
  refine ⟨h, fun answer => ?_⟩
  show Ok Q _ (read answer)
  cases hresult : read answer with
  | ok a => exact hread answer a hresult
  | error error => exact trivial

theorem Keeps.ok {a : α} (h : Q before a) :
    Keeps Allowed (Ok Q) before (pure a : Fallible ρ υ E α).run := h

theorem Keeps.throw (error : E) :
    Keeps Allowed (Ok Q) before (throw error : Fallible ρ υ E α).run := trivial

end Fallible

end Asking
