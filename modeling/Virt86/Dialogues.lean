import Mathlib.Data.List.Basic

/-!
# Dialogues

A client asks questions in turn, each of which may depend on the answers so far, until it has a
result. A server answers by its state. What each answer keeps, a dialogue keeps, and servers that
answer alike lead a client to the same result.
-/

namespace Virt86

/-- A client; the answers to a question are of a type of its own. -/
inductive Dialogue (Q : Type) (A : Q → Type) (R : Type) where
  | done (result : R)
  | ask (question : Q) (resume : A question → Dialogue Q A R)

/-- A server with states in `S`. -/
abbrev Server (Q : Type) (A : Q → Type) (S : Type) := (question : Q) → S → A question × S

/-- A question with its answer. -/
abbrev Exchange (Q : Type) (A : Q → Type) := (question : Q) × A question

namespace Dialogue

variable {Q : Type} {A : Q → Type} {R S T : Type}

/-- The exchanges with a server, the result and the last state of the server. -/
def run (server : Server Q A S) : Dialogue Q A R → S → List (Exchange Q A) × R × S
  | done result, s => ([], result, s)
  | ask question resume, s =>
    let next := server question s
    let rest := run server (resume next.1) next.2
    (⟨question, next.1⟩ :: rest.1, rest.2)

variable {server : Server Q A S} {server' : Server Q A T}

/-- What every answer keeps holds after a dialogue. -/
theorem run_preserves {Inv : S → Prop} (hserver : ∀ question s, Inv s → Inv (server question s).2)
    (d : Dialogue Q A R) {s : S} (hinv : Inv s) : Inv (run server d s).2.2 := by
  induction d generalizing s with
  | done result => exact hinv
  | ask question resume ih => exact ih _ (hserver question s hinv)

/-- A log to which every answer adds what is due for its exchange has, after a dialogue, what is due
for all exchanges. -/
theorem run_log {E : Type} (log : S → List E) (due : Exchange Q A → List E) {Inv : S → Prop}
    (hinv : ∀ question s, Inv s → Inv (server question s).2)
    (hserver : ∀ question s, Inv s →
      log (server question s).2 = log s ++ due ⟨question, (server question s).1⟩)
    (d : Dialogue Q A R) {s : S} (hs : Inv s) :
    log (run server d s).2.2 = log s ++ (run server d s).1.flatMap due := by
  induction d generalizing s with
  | done result => exact (List.append_nil _).symm
  | ask question resume ih =>
    have hrest := ih (server question s).1 (hinv question s hs)
    rw [hserver question s hs, List.append_assoc] at hrest
    exact hrest

/-- Servers that answer alike in related states have the same exchanges with a client and lead it to
the same result. -/
theorem run_simulates {Rel : S → T → Prop}
    (hserver : ∀ question s t, Rel s t → (server question s).1 = (server' question t).1 ∧
      Rel (server question s).2 (server' question t).2)
    (d : Dialogue Q A R) {s : S} {t : T} (hrel : Rel s t) :
    (run server d s).1 = (run server' d t).1 ∧
      (run server d s).2.1 = (run server' d t).2.1 ∧
      Rel (run server d s).2.2 (run server' d t).2.2 := by
  induction d generalizing s t with
  | done result => exact ⟨rfl, rfl, hrel⟩
  | ask question resume ih =>
    obtain ⟨hanswer, hnext⟩ := hserver question s t hrel
    obtain ⟨hexchanges, hresult, hlast⟩ := ih (server question s).1 hnext
    rw [hanswer] at hexchanges hresult hlast
    simp only [run]
    rw [hanswer]
    exact ⟨congrArg _ hexchanges, hresult, hlast⟩

/-! ## Questions in turn -/

/-- The questions of a list, put to a server in turn. -/
def askAll (server : Server Q A S) : List Q → S → List (Exchange Q A) × S
  | [], s => ([], s)
  | question :: questions, s =>
    let next := server question s
    let rest := askAll server questions next.2
    (⟨question, next.1⟩ :: rest.1, rest.2)

/-- A client that asks the questions of a list in turn and finishes by their answers. Between them
it asks others that are `Idle`, whose answers may only lead to more of them. -/
inductive Asks (Idle : Q → Prop) (finish : List (Exchange Q A) → R) :
    List Q → List (Exchange Q A) → Dialogue Q A R → Prop where
  | done (exchanges : List (Exchange Q A)) :
    Asks Idle finish [] exchanges (.done (finish exchanges))
  | ask {question : Q} {questions : List Q} {exchanges : List (Exchange Q A)}
      {resume : A question → Dialogue Q A R}
      (h : ∀ answer, Asks Idle finish questions (exchanges ++ [⟨question, answer⟩])
        (resume answer)) :
      Asks Idle finish (question :: questions) exchanges (.ask question resume)
  | idle {question : Q} {questions : List Q} {exchanges : List (Exchange Q A)}
      {resume : A question → Dialogue Q A R} (hidle : Idle question)
      (h : ∀ answer, Asks Idle finish questions exchanges (resume answer)) :
      Asks Idle finish questions exchanges (.ask question resume)

/-- A client that asks nothing else. -/
def inTurn (finish : List (Exchange Q A) → R) : List Q → List (Exchange Q A) → Dialogue Q A R
  | [], exchanges => .done (finish exchanges)
  | question :: questions, exchanges =>
    .ask question fun answer => inTurn finish questions (exchanges ++ [⟨question, answer⟩])

theorem asks_inTurn (Idle : Q → Prop) (finish : List (Exchange Q A) → R) (questions : List Q)
    (exchanges : List (Exchange Q A)) :
    Asks Idle finish questions exchanges (inTurn finish questions exchanges) := by
  induction questions generalizing exchanges with
  | nil => exact .done exchanges
  | cons question questions ih => exact .ask fun answer => ih _

/-- A client that asks questions in turn is answered as when they are put to the part `π` of the
server, if that is all that they concern and the idle questions do not. -/
theorem Asks.run {Idle Asked : Q → Prop} {finish : List (Exchange Q A) → R} (π : S → T)
    {Inv : S → Prop} (hinv : ∀ question s, Inv s → Inv (server question s).2)
    (hidle : ∀ question s, Inv s → Idle question → π (server question s).2 = π s)
    (hasked : ∀ question s, Inv s → Asked question →
      (server question s).1 = (server' question (π s)).1 ∧
        π (server question s).2 = (server' question (π s)).2)
    {questions : List Q} {exchanges : List (Exchange Q A)} {d : Dialogue Q A R}
    (h : Asks Idle finish questions exchanges d)
    (hquestions : ∀ question ∈ questions, Asked question) {s : S} (hs : Inv s) :
    (Dialogue.run server d s).2.1 =
        finish (exchanges ++ (askAll server' questions (π s)).1) ∧
      π (Dialogue.run server d s).2.2 = (askAll server' questions (π s)).2 := by
  induction h generalizing s with
  | done exchanges => exact ⟨congrArg finish (List.append_nil _).symm, rfl⟩
  | @ask question questions exchanges resume _ ih =>
    rw [List.forall_mem_cons] at hquestions
    obtain ⟨hanswer, hnext⟩ := hasked question s hs hquestions.1
    obtain ⟨hresult, hlast⟩ := ih (server question s).1 hquestions.2 (hinv question s hs)
    rw [hnext] at hresult hlast
    refine ⟨hresult.trans ?_, hlast⟩
    simp only [askAll, List.append_assoc, List.cons_append, List.nil_append, hanswer]
  | @idle question questions exchanges resume hquestion _ ih =>
    obtain ⟨hresult, hlast⟩ := ih (server question s).1 hquestions (hinv question s hs)
    rw [hidle question s hs hquestion] at hresult hlast
    exact ⟨hresult, hlast⟩

end Dialogue

end Virt86
