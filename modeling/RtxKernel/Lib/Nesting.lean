import Mathlib.Data.List.Basic
import Mathlib.Logic.Function.Basic

/-!
# Code with nested sections

`Code α` is structured code over the actions `α`, of which the tests are left open: `either` takes any of its two
branches, and `loop` goes round any number of times. An action has an effect on the depth of nesting, `effect x n`,
which is undefined where the action must not be taken; `after` gives the depth behind a piece of code, if that is the
same on all paths. `expand` is one step of the control flow, and `after_expand` says that it keeps the depth that is
reached at the end.
-/

namespace RtxKernel

universe u v

/-- Structured code over the actions `α` -/
inductive Code (α : Type u)
  | skip
  | act (x : α)
  | seq (a b : Code α)
  | either (a b : Code α)
  | loop (a : Code α)

namespace Code

variable {α : Type u} {effect : α → ℕ → Option ℕ} {p : α → Bool} {c d : Code α} {k l : List (Code α)} {n m : ℕ}
  {b : Bool}

instance : AndThen (Code α) := ⟨fun a b => seq a (b ())⟩

@[simp] lemma andThen_eq : (c >> d) = seq c d := rfl

/-- One of several -/
def anyOf (l : List (Code α)) : Code α := l.foldr either skip

/-- One step of the control flow. At a test `b` is the way that is taken. -/
def expand (b : Bool) : Code α → Option (List (Code α))
  | skip => some []
  | act _ => none
  | seq x y => some [x, y]
  | either x y => some [if b then x else y]
  | loop x => some (if b then [x, loop x] else [])

/-- The depth behind the code, which is entered at the depth `n` -/
def after (effect : α → ℕ → Option ℕ) : Code α → ℕ → Option ℕ
  | skip, n => some n
  | act x, n => effect x n
  | seq a b, n => (a.after effect n).bind (b.after effect)
  | either a b, n => if a.after effect n = b.after effect n then a.after effect n else none
  | loop a, n => if a.after effect n = some n then some n else none

/-- The depth behind the pieces of code, one after another -/
def afterAll (effect : α → ℕ → Option ℕ) (l : List (Code α)) (n : ℕ) : Option ℕ :=
  l.foldlM (fun n c => c.after effect n) n

@[simp] lemma afterAll_nil : afterAll effect [] n = some n := rfl

@[simp] lemma afterAll_cons :
    afterAll effect (c :: k) n = (c.after effect n).bind (afterAll effect k) := List.foldlM_cons

@[simp] lemma bind_afterAll_nil (o : Option ℕ) : o.bind (afterAll effect []) = o := Option.bind_fun_some o

lemma afterAll_append : afterAll effect (l ++ k) n = (afterAll effect l n).bind (afterAll effect k) := by
  rw [afterAll, List.foldlM_append]
  rfl

lemma after_expand (h : c.expand b = some l) (hn : c.after effect n = some m) : afterAll effect l n = some m := by
  cases c with
  | skip =>
    obtain rfl := Option.some.inj h
    exact hn
  | act x => cases h
  | seq x y =>
    obtain rfl := Option.some.inj h
    rw [after] at hn
    rw [afterAll_cons, ← hn]
    congr 1
    funext i
    simp
  | either x y =>
    obtain rfl := Option.some.inj h
    rw [after] at hn
    split_ifs at hn with heq
    cases b with
    | true => simpa using hn
    | false => simpa [← heq] using hn
  | loop x =>
    obtain rfl := Option.some.inj h
    have hloop := hn
    rw [after] at hn
    split_ifs at hn with heq
    obtain rfl := Option.some.inj hn
    cases b with
    | true => simp [heq, hloop]
    | false => rfl

/-- One step inside of a list of pieces -/
lemma afterAll_expand (h : c.expand b = some l) (hn : afterAll effect (c :: k) n = some m) :
    afterAll effect (l ++ k) n = some m := by
  rw [afterAll_cons] at hn
  obtain ⟨i, hi, hn⟩ := Option.bind_eq_some_iff.mp hn
  rw [afterAll_append, after_expand h hi]
  exact hn

lemma afterAll_act {x : α} :
    afterAll effect (act x :: k) n = some m ↔ ∃ i, effect x n = some i ∧ afterAll effect k i = some m := by
  rw [afterAll_cons, Option.bind_eq_some_iff]
  rfl

/-- The actions of the code all have the property `p`. -/
def all (p : α → Bool) : Code α → Bool
  | skip => true
  | act x => p x
  | seq a b | either a b => a.all p && b.all p
  | loop a => a.all p

lemma all_expand (h : c.expand b = some l) (hc : c.all p = true) : ∀ x ∈ l, x.all p = true := by
  cases c with
  | skip =>
    obtain rfl := Option.some.inj h
    simp
  | act x => cases h
  | seq x y =>
    obtain rfl := Option.some.inj h
    simpa [all] using hc
  | either x y =>
    obtain rfl := Option.some.inj h
    rw [all, Bool.and_eq_true] at hc
    cases b with
    | true => simpa using hc.1
    | false => simpa using hc.2
  | loop x =>
    obtain rfl := Option.some.inj h
    cases b with
    | true => simpa [all] using hc
    | false => simp

/-! ### Code over other actions -/

section Map

variable {β : Type v}

def map (f : α → β) : Code α → Code β
  | skip => skip
  | act x => act (f x)
  | seq a b => seq (a.map f) (b.map f)
  | either a b => either (a.map f) (b.map f)
  | loop a => loop (a.map f)

/-- One after the other, unless there is nothing to do -/
def join : Code β → Code β → Code β
  | skip, b => b
  | a, skip => a
  | a, b => seq a b

/-- The code, without the actions for which `f` has no value -/
def filterMap (f : α → Option β) : Code α → Code β
  | skip => skip
  | act x => (f x).elim skip act
  | seq a b => join (a.filterMap f) (b.filterMap f)
  | either a b => either (a.filterMap f) (b.filterMap f)
  | loop a => loop (a.filterMap f)

end Map

end Code

end RtxKernel
