namespace CodeIntel

/-- A computation that asks its surroundings for answers. A question `q` is answered by a value of
`A q`. -/
inductive Plan (Q : Type) (A : Q → Type) (α : Type)
  | done (value : α)
  | ask (question : Q) (next : A question → Plan Q A α)

namespace Plan

variable {Q : Type} {A : Q → Type} {α β γ : Type}

def bind (p : Plan Q A α) (f : α → Plan Q A β) : Plan Q A β :=
  match p with
  | done a => f a
  | ask q next => ask q fun answer => (next answer).bind f

instance : Monad (Plan Q A) where
  pure := done
  bind := bind

/-- The plan that asks one question and gives its answer. -/
def query (q : Q) : Plan Q A (A q) := ask q done

@[simp] theorem done_bind (a : α) (f : α → Plan Q A β) : (done a).bind f = f a := rfl

@[simp] theorem ask_bind (q : Q) (next : A q → Plan Q A α) (f : α → Plan Q A β) :
    (ask q next).bind f = ask q fun answer => (next answer).bind f := rfl

theorem bind_done (p : Plan Q A α) : p.bind done = p := by
  induction p with
  | done a => rfl
  | ask q next ih => simp [ih]

theorem bind_assoc (p : Plan Q A α) (f : α → Plan Q A β) (g : β → Plan Q A γ) :
    (p.bind f).bind g = p.bind fun a => (f a).bind g := by
  induction p with
  | done a => rfl
  | ask q next ih => simp [ih]

instance : LawfulMonad (Plan Q A) :=
  LawfulMonad.mk' (Plan Q A) (fun p => by exact bind_done p) (fun _ _ => rfl)
    (fun p f g => bind_assoc p f g)

def run {σ : Type} (answer : (q : Q) → σ → A q × σ) (state : σ) : Plan Q A α → α × σ
  | done a => (a, state)
  | ask q next =>
    let (a, state) := answer q state
    run answer state (next a)

end Plan

end CodeIntel
