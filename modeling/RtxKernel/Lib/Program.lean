import Mathlib.Logic.Basic

/-!
# Programs that call a system

A `Program` makes calls, goes on with their results and ends with a value. What it may ask for and what it is
answered is a `Contract` over a state, the part of the system that the program knows. `wp` is the weakest
precondition: every call of the program is one that the contract admits, and whatever the results are, the
program ends in a state with the given property. It is computed along the program, by the rules below.
-/

namespace RtxKernel

/-- A call `c` is answered with a `Result c`. -/
inductive Program (Call : Type) (Result : Call → Type) (α : Type)
  | done (a : α)
  | step (c : Call) (next : Result c → Program Call Result α)

/-- What is asked of a call, and what it may do -/
structure Contract (Call : Type) (Result : Call → Type) (σ : Type) where
  pre : σ → Call → Prop
  post : σ → (c : Call) → Result c → σ → Prop

namespace Program

variable {Call : Type} {Result : Call → Type} {α β σ : Type}

def bind : Program Call Result α → (α → Program Call Result β) → Program Call Result β
  | done a, f => f a
  | step c next, f => step c fun x => (next x).bind f

instance : Monad (Program Call Result) where
  pure := done
  bind := bind

/-- The program is at its end. -/
def isDone : Program Call Result α → Bool
  | done _ => true
  | step _ _ => false

lemma exists_done_of_isDone {x : Program Call Result α} (h : x.isDone = true) : ∃ a, x = done a := by
  cases x with
  | done a => exact ⟨a, rfl⟩
  | step c next => cases h

/-- The program that makes one call -/
def call (c : Call) : Program Call Result (Result c) := step c done

variable (K : Contract Call Result σ)

def wp : Program Call Result α → (α → σ → Prop) → σ → Prop
  | done a, Q, s => Q a s
  | step c next, Q, s => K.pre s c ∧ ∀ x t, K.post s c x t → (next x).wp Q t

variable {K} {x : Program Call Result α} {f : α → Program Call Result β} {P Q : α → σ → Prop}
  {R : β → σ → Prop} {s : σ} {c : Call} {a : α}

@[simp] lemma wp_pure : (pure a : Program Call Result α).wp K Q s ↔ Q a s := Iff.rfl

@[simp] lemma wp_call {Q : Result c → σ → Prop} : (call c).wp K Q s ↔
    K.pre s c ∧ ∀ x t, K.post s c x t → Q x t := Iff.rfl

@[simp] lemma wp_bind : (x >>= f).wp K R s ↔ x.wp K (fun a t => (f a).wp K R t) s := by
  induction x generalizing s with
  | done a => exact Iff.rfl
  | step c next ih =>
    refine and_congr_right fun _ => ?_
    refine forall_congr' fun r => forall_congr' fun t => ?_
    exact imp_congr_right fun _ => ih r

/-- If calls that are admitted can be answered, in states that lie further on, then the program can end. -/
lemma exists_of_wp (Le : σ → σ → Prop) (hrefl : ∀ s, Le s s) (htrans : ∀ s t u, Le s t → Le t u → Le s u)
    (hpost : ∀ s c, K.pre s c → ∃ x t, K.post s c x t ∧ Le s t) (h : x.wp K Q s) : ∃ a t, Q a t ∧ Le s t := by
  induction x generalizing s with
  | done a => exact ⟨a, s, h, hrefl s⟩
  | step c next ih =>
    obtain ⟨r, t, hr, hst⟩ := hpost s c h.1
    obtain ⟨a, u, ha, htu⟩ := ih r (h.2 r t hr)
    exact ⟨a, u, ha, htrans s t u hst htu⟩

end Program

end RtxKernel
