import Mathlib

/-! Programs that call services whose answers they do not choose. A program is the tree of what it
does next for every answer, and its weakest precondition speaks of each call it can make together
with all calls and answers before it, the latest first. -/

namespace Program

variable {C : Type} {R : C → Type} {ε α β : Type}

/-- A call and its answer. -/
abbrev Event (R : C → Type) := (c : C) × R c

/-- `R c` is the type of the answers to the call `c`. -/
inductive Prog (R : C → Type) (ε α : Type)
  | done (result : Except ε α)
  | call (c : C) (next : R c → Prog R ε α)

namespace Prog

def bind : Prog R ε α → (α → Prog R ε β) → Prog R ε β
  | done (.ok a), f => f a
  | done (.error e), _ => done (.error e)
  | call c next, f => call c fun answer => (next answer).bind f

instance : Monad (Prog R ε) where
  pure a := done (.ok a)
  bind := bind

def perform (c : C) : Prog R ε (R c) := call c fun answer => done (.ok answer)

def fail (e : ε) : Prog R ε α := done (.error e)

/-- The result of a program as a value, as where a `Result` is matched on. -/
def attempt : Prog R ε α → Prog R ε (Except ε α)
  | done result => done (.ok result)
  | call c next => call c fun answer => (next answer).attempt

/-- Every call that `p` makes after the events `h` meets `pre`, and it ends with `post`. -/
def wp (pre : List (Event R) → C → Prop) :
    List (Event R) → Prog R ε α → (List (Event R) → Except ε α → Prop) → Prop
  | h, done result, post => post h result
  | h, call c next, post => pre h c ∧ ∀ answer, wp pre (⟨c, answer⟩ :: h) (next answer) post

/-- A program against a service that answers from its state, or has no answer: the result, the number of calls and
the state that is left. -/
def run {σ : Type} (answer : σ → (c : C) → Option (R c × σ)) : Prog R ε α → σ → Option (Except ε α × ℕ × σ)
  | done result, s => some (result, 0, s)
  | call c next, s => (answer s c).bind fun (reply, s') =>
    (run answer (next reply) s').map fun (result, calls, s'') => (result, calls + 1, s'')

theorem run_perform {σ : Type} {answer : σ → (c : C) → Option (R c × σ)} {c : C} {f : R c → Prog R ε α} {s s' : σ}
    {reply : R c} (h : answer s c = some (reply, s')) :
    run answer (perform c >>= f) s = (run answer (f reply) s').map fun r => (r.1, r.2.1 + 1, r.2.2) := by
  show (answer s c).bind _ = _
  rw [h]
  rfl

variable {pre : List (Event R) → C → Prop} {h : List (Event R)} {post : List (Event R) → Except ε α → Prop}

@[simp] theorem wp_done {result : Except ε α} : wp pre h (done result) post ↔ post h result := Iff.rfl

@[simp] theorem wp_pure {a : α} : wp pre h (pure a : Prog R ε α) post ↔ post h (.ok a) := Iff.rfl

@[simp] theorem wp_fail {e : ε} : wp pre h (fail e : Prog R ε α) post ↔ post h (.error e) := Iff.rfl

@[simp] theorem wp_perform {c : C} {post : List (Event R) → Except ε (R c) → Prop} :
    wp pre h (perform c) post ↔ pre h c ∧ ∀ answer, post (⟨c, answer⟩ :: h) (.ok answer) := Iff.rfl

/-- What follows a program that may have failed. -/
def andThen (pre : List (Event R) → C → Prop) (f : α → Prog R ε β)
    (post : List (Event R) → Except ε β → Prop) (h : List (Event R)) : Except ε α → Prop
  | .ok a => wp pre h (f a) post
  | .error e => post h (.error e)

@[simp] theorem andThen_ok {f : α → Prog R ε β} {post : List (Event R) → Except ε β → Prop} {a : α} :
    andThen pre f post h (.ok a) ↔ wp pre h (f a) post := Iff.rfl

@[simp] theorem andThen_error {f : α → Prog R ε β} {post : List (Event R) → Except ε β → Prop} {e : ε} :
    andThen pre f post h (.error e) ↔ post h (.error e) := Iff.rfl

@[simp] theorem wp_bind {p : Prog R ε α} {f : α → Prog R ε β} {post : List (Event R) → Except ε β → Prop} :
    wp pre h (p >>= f) post ↔ wp pre h p (andThen pre f post) := by
  show wp pre h (p.bind f) post ↔ _
  induction p generalizing h with
  | done result => cases result <;> rfl
  | call c next ih => exact and_congr_right fun _ => forall_congr' fun answer => ih answer

@[simp] theorem wp_attempt {p : Prog R ε α} {post : List (Event R) → Except ε (Except ε α) → Prop} :
    wp pre h p.attempt post ↔ wp pre h p fun h' result => post h' (.ok result) := by
  induction p generalizing h with
  | done result => rfl
  | call c next ih => exact and_congr_right fun _ => forall_congr' fun answer => ih answer

theorem wp_ite {c : Prop} [Decidable c] {p q : Prog R ε α} (hp : c → wp pre h p post) (hq : ¬c → wp pre h q post) :
    wp pre h (if c then p else q) post := by
  split_ifs with hc
  · exact hp hc
  · exact hq hc

theorem wp_mono {p : Prog R ε α} {post' : List (Event R) → Except ε α → Prop}
    (hpost : ∀ h' result, post h' result → post' h' result) (hp : wp pre h p post) : wp pre h p post' := by
  induction p generalizing h with
  | done result => exact hpost _ _ hp
  | call c next ih => exact ⟨hp.1, fun answer => ih answer (hp.2 answer)⟩

/-- From the events `h` on, the program can end with these events and this result. -/
inductive Ends : List (Event R) → Prog R ε α → List (Event R) → Except ε α → Prop
  | done (h : List (Event R)) (result : Except ε α) : Ends h (.done result) h result
  | call {h h' : List (Event R)} {c : C} {next : R c → Prog R ε α} {result : Except ε α} (answer : R c)
      (hends : Ends (⟨c, answer⟩ :: h) (next answer) h' result) : Ends h (.call c next) h' result

theorem Ends.of_wp {p : Prog R ε α} {h' : List (Event R)} {result : Except ε α} (hends : Ends h p h' result)
    (hp : wp pre h p post) : post h' result := by
  induction hends with
  | done h result => exact hp
  | call answer _ ih => exact ih (hp.2 answer)

/-- Every call of the history met `pre` when it was made. -/
def Honours (pre : List (Event R) → C → Prop) : List (Event R) → Prop
  | [] => True
  | e :: h => pre h e.1 ∧ Honours pre h

theorem wp_honours {p : Prog R ε α} (hp : wp pre h p post) (hh : Honours pre h) :
    wp (fun _ _ => True) h p fun h' result => post h' result ∧ Honours pre h' := by
  induction p generalizing h with
  | done result => exact ⟨hp, hh⟩
  | call c next ih => exact ⟨trivial, fun answer => ih answer (hp.2 answer) ⟨hp.1, hh⟩⟩

/-- Every call of the program meets `P`, whatever was answered before. -/
def Only (P : C → Prop) : Prog R ε α → Prop
  | done _ => True
  | call c next => P c ∧ ∀ answer, (next answer).Only P

variable {P : C → Prop}

theorem Only.bind {p : Prog R ε α} {f : α → Prog R ε β} (hp : p.Only P) (hf : ∀ a, (f a).Only P) :
    (p >>= f).Only P := by
  show (p.bind f).Only P
  induction p with
  | done result =>
    cases result with
    | ok a => exact hf a
    | error e => trivial
  | call c next ih => exact ⟨hp.1, fun answer => ih answer (hp.2 answer)⟩

theorem Only.perform {c : C} (hc : P c) : (perform c : Prog R ε (R c)).Only P := ⟨hc, fun _ => trivial⟩

theorem Only.ite {c : Prop} [Decidable c] {p q : Prog R ε α} (hp : p.Only P) (hq : q.Only P) :
    (if c then p else q).Only P := by
  split_ifs
  · exact hp
  · exact hq

/-- An invariant of the events that allows the calls of a program is kept by it. -/
theorem Only.wp {I : List (Event R) → Prop} (hpre : ∀ h c, I h → P c → pre h c)
    (hstep : ∀ h c answer, I h → P c → I (⟨c, answer⟩ :: h)) {p : Prog R ε α} (hp : p.Only P) (hI : I h) :
    wp pre h p fun h' _ => I h' := by
  induction p generalizing h with
  | done result => exact hI
  | call c next ih => exact ⟨hpre h c hI hp.1, fun answer => ih answer (hp.2 answer) (hstep h c answer hI hp.1)⟩

end Prog

end Program
