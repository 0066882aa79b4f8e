import RtxKernel.Lib.Bytes
import Mathlib.Data.List.Basic

/-!
# Strings in memory, and decimal numbers

A string `t` stands at the address `a` if its bytes do, none of them is zero, and a zero byte follows. A
decimal number is a string of digits that is not empty; `value` is what it denotes.
-/

namespace RtxKernel

/-- The string `t` stands at `a`. -/
def StringAt (m : Memory) : Nat → List UInt8 → Prop
  | a, [] => m a = 0
  | a, c :: t => m a = c ∧ c ≠ 0 ∧ StringAt m (a + 1) t

instance decidableStringAt (m : Memory) : (a : Nat) → (t : List UInt8) → Decidable (StringAt m a t)
  | a, [] => inferInstanceAs (Decidable (m a = 0))
  | a, c :: t =>
    have := decidableStringAt m (a + 1) t
    inferInstanceAs (Decidable (m a = c ∧ c ≠ 0 ∧ StringAt m (a + 1) t))

namespace StringAt

variable {m m' : Memory} {a : Nat} {s t : List UInt8} {c : UInt8}

@[simp] lemma nil_iff : StringAt m a [] ↔ m a = 0 := Iff.rfl

@[simp] lemma cons_iff : StringAt m a (c :: t) ↔ m a = c ∧ c ≠ 0 ∧ StringAt m (a + 1) t := Iff.rfl

/-- At an address stands one string. -/
theorem unique (h : StringAt m a s) (h' : StringAt m a t) : s = t := by
  induction s generalizing a t with
  | nil =>
    cases t with
    | nil => rfl
    | cons d t => exact absurd (h'.1.symm.trans h) h'.2.1
  | cons c s ih =>
    cases t with
    | nil => exact absurd (h.1.symm.trans h') h.2.1
    | cons d t => rw [ih h.2.2 h'.2.2, h.1.symm.trans h'.1]

/-- The end of a string is a string. -/
lemma of_append (h : StringAt m a (s ++ t)) : StringAt m (a + s.length) t := by
  induction s generalizing a with
  | nil => exact h
  | cons c s ih =>
    have hs := ih h.2.2
    rwa [Nat.add_assoc, Nat.add_comm 1] at hs

/-- The null behind a string -/
lemma null (h : StringAt m a s) : m (a + s.length) = 0 := by
  rw [← List.append_nil s] at h
  exact h.of_append

/-- Cutting a string off. -/
lemma cut (h : StringAt m a (s ++ t)) (hs : ∀ x, a ≤ x → x < a + s.length → m' x = m x)
    (hz : m' (a + s.length) = 0) : StringAt m' a s := by
  induction s generalizing a with
  | nil => exact hz
  | cons c s ih =>
    rw [List.length_cons] at hs hz
    refine ⟨?_, h.2.1, ih h.2.2 ?_ ?_⟩
    · rw [hs a (Nat.le_refl a) (by omega)]
      exact h.1
    · intro x hx hx'
      exact hs x (by omega) (by omega)
    · rwa [Nat.add_assoc, Nat.add_comm 1]

lemma frame (h : StringAt m a t) (hm : ∀ x, a ≤ x → x ≤ a + t.length → m' x = m x) :
    StringAt m' a t := by
  induction t generalizing a with
  | nil => exact (hm a (Nat.le_refl a) (Nat.le_refl a)).trans h
  | cons c t ih =>
    rw [List.length_cons] at hm
    refine ⟨?_, h.2.1, ih h.2.2 ?_⟩
    · rw [hm a (Nat.le_refl a) (by omega)]
      exact h.1
    · intro x hx hx'
      exact hm x (by omega) (by omega)

end StringAt

/-- A text is cut at the first `c` in one way. -/
lemma cut_unique {c : UInt8} {p q p' q' : List UInt8} (hp : c ∉ p) (hp' : c ∉ p')
    (h : p ++ c :: q = p' ++ c :: q') : p = p' ∧ q = q' := by
  induction p generalizing p' with
  | nil =>
    cases p' with
    | nil => exact ⟨rfl, (List.cons.inj h).2⟩
    | cons d p' =>
      obtain ⟨rfl, -⟩ := List.cons.inj h
      exact absurd List.mem_cons_self hp'
  | cons d p ih =>
    cases p' with
    | nil =>
      obtain ⟨rfl, -⟩ := List.cons.inj h
      exact absurd List.mem_cons_self hp
    | cons d' p' =>
      obtain ⟨rfl, htail⟩ := List.cons.inj h
      rw [List.mem_cons, not_or] at hp hp'
      obtain ⟨rfl, rfl⟩ := ih hp.2 hp'.2 htail
      exact ⟨rfl, rfl⟩

/-! ### Bytes that a loop reads -/

section Reads

variable {stop : UInt8 → Prop} [DecidablePred stop] {m m' : Memory} {a b n x : Nat}

/-- The addresses that a loop reads from `a` on, up to the first byte that stops it, in at most `n` turns. -/
def reads (stop : UInt8 → Prop) [DecidablePred stop] (m : Memory) : Nat → Nat → List Nat
  | 0, _ => []
  | n + 1, a => a :: if stop (m a) then [] else reads stop m n (a + 1)

lemma start_mem_reads (hn : 0 < n) : a ∈ reads stop m n a := by
  obtain ⟨n, rfl⟩ : ∃ k, n = k + 1 := Nat.exists_eq_add_one_of_ne_zero (Nat.ne_of_gt hn)
  rw [reads]
  exact List.mem_cons_self

/-- The loop stays below `b` if it is stopped there, and only then. -/
theorem reads_lt_iff (hpos : 0 < n) (hn : b < a + n) :
    (∀ x ∈ reads stop m n a, x < b) ↔ ∃ x, a ≤ x ∧ x < b ∧ stop (m x) := by
  by_cases hab : a < b
  · -- induction on the turns; the last of them is not needed
    clear hpos
    induction n generalizing a with
    | zero => exact absurd hab (Nat.lt_asymm hn)
    | succ n ih =>
      rw [reads, List.forall_mem_cons]
      by_cases hs : stop (m a)
      · rw [if_pos hs]
        constructor
        · intro _
          exact ⟨a, Nat.le_refl a, hab, hs⟩
        · intro _
          refine ⟨hab, ?_⟩
          intro y hy
          cases hy
      · have hrest : (∃ x, a ≤ x ∧ x < b ∧ stop (m x)) ↔ ∃ x, a + 1 ≤ x ∧ x < b ∧ stop (m x) := by
          constructor
          · rintro ⟨x, hax, hxb, hx⟩
            refine ⟨x, Nat.lt_of_le_of_ne hax ?_, hxb, hx⟩
            rintro rfl
            exact hs hx
          · rintro ⟨x, hax, hxb, hx⟩
            exact ⟨x, Nat.le_of_succ_le hax, hxb, hx⟩
        rw [if_neg hs, hrest]
        rcases Nat.lt_or_eq_of_le (Nat.succ_le_of_lt hab) with hlt | rfl
        · rw [ih (by omega) hlt]
          exact and_iff_right hab
        · constructor
          · rintro ⟨-, hall⟩
            exact absurd (hall _ (start_mem_reads (by omega))) (Nat.lt_irrefl _)
          · rintro ⟨x, hax, hxb, -⟩
            exact absurd hxb (Nat.not_lt_of_le hax)
  · constructor
    · intro hall
      exact absurd (hall a (start_mem_reads hpos)) hab
    · rintro ⟨x, hax, hxb, -⟩
      exact absurd (Nat.lt_of_le_of_lt hax hxb) hab

end Reads

/-! ### Decimal numbers -/

def isDigit (c : UInt8) : Bool := 0x30 ≤ c && c ≤ 0x39

/-- What a digit denotes. -/
def digit (c : UInt8) : Nat := c.toNat - 0x30

/-- What a string of digits denotes, behind digits that denote `v`. -/
def valueFrom (v : Nat) (s : List UInt8) : Nat := s.foldl (fun v c => v * 10 + digit c) v

/-- What a string of digits denotes. -/
def value (s : List UInt8) : Nat := valueFrom 0 s

/-- A decimal number. -/
def IsNumber (s : List UInt8) : Prop := s ≠ [] ∧ ∀ c ∈ s, isDigit c = true

instance (s : List UInt8) : Decidable (IsNumber s) :=
  decidable_of_iff (s ≠ [] ∧ s.all isDigit = true) (by rw [IsNumber, List.all_eq_true])

lemma isDigit_iff {c : UInt8} : isDigit c = true ↔ ¬ (c < 0x30 ∨ 0x39 < c) := by
  rw [isDigit, Bool.and_eq_true, decide_eq_true_iff, decide_eq_true_iff, not_or, UInt8.not_lt,
    UInt8.not_lt]

end RtxKernel
