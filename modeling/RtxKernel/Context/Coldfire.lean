import RtxKernel.Lib.Stack
import Mathlib.Algebra.Group.Nat.Defs

/-!
# Registers and the stack of the CPU

The register file of the ColdFire with its one stack pointer, a7, the instructions with which the kernel saves
registers, and the frame of an exception. A frame is aligned: up to three bytes below the old a7 stay unused,
and how many is kept in its format field, from which `RTE` gets a7 back (`rte_exception`).
-/

namespace RtxKernel

/-- The data registers `d0` to `d7` and the address registers `a0` to `a7` -/
inductive Reg
  | d0
  | d1
  | d2
  | d3
  | d4
  | d5
  | d6
  | d7
  | a0
  | a1
  | a2
  | a3
  | a4
  | a5
  | a6
  | a7
  deriving DecidableEq

abbrev Registers := Reg → UInt32

structure Coldfire where
  reg : Registers
  pc : UInt32
  sr : UInt16
  memory : Memory

namespace Coldfire

def sp (c : Coldfire) : UInt32 := c.reg .a7

/-- The frame pointer of compiled code -/
def fp (c : Coldfire) : UInt32 := c.reg .a6

def withSp (c : Coldfire) (v : UInt32) : Coldfire := { c with reg := Function.update c.reg .a7 v }

def push (c : Coldfire) (w : UInt32) : Coldfire :=
  { c.withSp (c.sp - 4) with memory := write32 c.memory (c.sp - 4).toNat w }

/-- `MOVE.L x,-(%a7)`, which for a7 itself stores the pointer from before. -/
def pushReg (c : Coldfire) (x : Reg) : Coldfire := c.push (c.reg x)

def pop (c : Coldfire) : UInt32 × Coldfire := (read32 c.memory c.sp.toNat, c.withSp (c.sp + 4))

/-- `MOVE.L (%a7)+,x` -/
def popReg (c : Coldfire) (x : Reg) : Coldfire :=
  { c.pop.2 with reg := Function.update c.pop.2.reg x c.pop.1 }

/-- `MOVE.L (%a7)+,%[x]`, into a local variable that is named after the register `x` -/
def popLocal (c : Registers × Coldfire) (x : Reg) : Registers × Coldfire :=
  (Function.update c.1 x c.2.pop.1, c.2.pop.2)

/-! ### Exceptions -/

/-- The upper word of a frame: format, vector number and status register -/
def frameWord (c : Coldfire) (vector : UInt8) : UInt32 :=
  UInt32.ofNat ((4 + c.sp.toNat % 4) * 0x10000000 + vector.toNat * 0x40000 + c.sr.toNat)

/-- A trap or an interrupt, which goes on at `handler` with the status register `sr`. -/
def exception (c : Coldfire) (vector : UInt8) (handler : UInt32) (sr : UInt16) : Coldfire :=
  { ((c.withSp (c.sp - UInt32.ofNat (c.sp.toNat % 4))).push c.pc).push (c.frameWord vector) with
    pc := handler
    sr := sr }

/-- `RTE` -/
def rte (c : Coldfire) : Coldfire :=
  let w := c.pop.1
  let r := c.pop.2.pop
  { r.2.withSp (r.2.sp + UInt32.ofNat (w.toNat / 0x10000000 - 4)) with
    pc := r.1
    sr := UInt16.ofNat w.toNat }

/-! ### Words on the stack -/

variable {c : Coldfire} {w : UInt32} {ws : List UInt32} {xs : List Reg} {x : Reg} {f : Registers} {n : Nat}

@[simp] lemma withSp_sp (c : Coldfire) (v : UInt32) : (c.withSp v).sp = v := by simp [sp, withSp]

lemma withSp_reg (h : x ≠ .a7) (v : UInt32) : (c.withSp v).reg x = c.reg x :=
  Function.update_of_ne h ..

lemma push_reg (h : x ≠ .a7) (w : UInt32) : (c.push w).reg x = c.reg x := withSp_reg h _

lemma toNat_sub (h : n ≤ c.sp.toNat) : (c.sp - UInt32.ofNat n).toNat = c.sp.toNat - n := by
  have hlt := c.sp.toNat_lt
  have hn : (UInt32.ofNat n).toNat = n := UInt32.toNat_ofNat_of_lt' (Nat.lt_of_le_of_lt h hlt)
  rw [UInt32.toNat_sub_of_le _ _ (by rwa [UInt32.le_iff_toNat_le, hn]), hn]

lemma toNat_add (h : c.sp.toNat + n < 2 ^ 32) : (c.sp + UInt32.ofNat n).toNat = c.sp.toNat + n := by
  rw [UInt32.toNat_add, UInt32.toNat_ofNat_of_lt' (by rw [UInt32.size]; omega), Nat.mod_eq_of_lt h]

lemma push_sp (h : 4 ≤ c.sp.toNat) : (c.push w).sp.toNat = c.sp.toNat - 4 := by
  rw [← toNat_sub h]
  exact congrArg UInt32.toNat (withSp_sp c (c.sp - 4))

lemma pop_sp (h : c.sp.toNat + 4 < 2 ^ 32) : c.pop.2.sp.toNat = c.sp.toNat + 4 := by
  rw [← toNat_add h]
  exact congrArg UInt32.toNat (withSp_sp ..)

lemma push_memory (h : 4 ≤ c.sp.toNat) : (c.push w).memory = write32 c.memory (c.sp.toNat - 4) w := by
  rw [← toNat_sub h]
  rfl

lemma popReg_memory (c : Coldfire) (x : Reg) : (c.popReg x).memory = c.memory := by
  rw [popReg, pop, withSp]

lemma popReg_self : (c.popReg x).reg x = read32 c.memory c.sp.toNat := Function.update_self ..

lemma popReg_of_ne {y : Reg} (hy : y ≠ x) (hsp : y ≠ .a7) : (c.popReg x).reg y = c.reg y :=
  (Function.update_of_ne hy ..).trans (withSp_reg hsp _)

/-! Several words -/

lemma foldl_push_memory (h : 4 * ws.length ≤ c.sp.toNat) :
    (ws.foldl push c).memory = pushAll c.memory c.sp.toNat ws := by
  induction ws generalizing c with
  | nil => rfl
  | cons w ws ih =>
    rw [List.length_cons] at h
    have h4 : 4 ≤ c.sp.toNat := by omega
    rw [List.foldl_cons, ih (by rw [push_sp h4]; omega), push_sp h4, push_memory h4, pushAll]

lemma foldl_push_sp (h : 4 * ws.length ≤ c.sp.toNat) :
    (ws.foldl push c).sp.toNat = c.sp.toNat - 4 * ws.length := by
  induction ws generalizing c with
  | nil => rfl
  | cons w ws ih =>
    rw [List.length_cons] at h ⊢
    have h4 : 4 ≤ c.sp.toNat := by omega
    rw [List.foldl_cons, ih (by rw [push_sp h4]; omega), push_sp h4]
    omega

/-- The stack pointer can be pushed first, but not between other registers. -/
lemma foldl_pushReg (hx : .a7 ∉ xs) :
    (x :: xs).foldl pushReg c = ((x :: xs).map c.reg).foldl push c := by
  induction xs generalizing c x with
  | nil => rfl
  | cons y xs ih =>
    rw [List.mem_cons, not_or] at hx
    have hmap : (y :: xs).map (c.push (c.reg x)).reg = (y :: xs).map c.reg := by
      apply List.map_congr_left
      intro z hz
      apply push_reg
      rintro rfl
      exact (List.mem_cons.mp hz).elim hx.1 hx.2
    rw [List.foldl_cons, pushReg, ih hx.2, hmap]
    rfl

lemma foldl_popLocal (h : c.sp.toNat + 4 * xs.length < 2 ^ 32) :
    (xs.foldl popLocal (f, c)).1 = popInto c.memory c.sp.toNat xs f ∧
      (xs.foldl popLocal (f, c)).2.memory = c.memory ∧
      (xs.foldl popLocal (f, c)).2.sp.toNat = c.sp.toNat + 4 * xs.length := by
  induction xs generalizing c f with
  | nil => exact ⟨rfl, rfl, rfl⟩
  | cons y xs ih =>
    rw [List.length_cons] at h
    have hsp : c.pop.2.sp.toNat = c.sp.toNat + 4 := pop_sp (by omega)
    obtain ⟨hf, hm, hs⟩ := ih (c := c.pop.2) (f := Function.update f y c.pop.1) (by rw [hsp]; omega)
    rw [List.foldl_cons, popLocal]
    refine ⟨?_, hm, ?_⟩
    · rw [hf, hsp]
      rfl
    · rw [hs, hsp, List.length_cons]
      omega

/-- Popping registers other than the stack pointer -/
lemma foldl_popReg (hxs : .a7 ∉ xs) (h : c.sp.toNat + 4 * xs.length < 2 ^ 32) :
    (∀ x, x ≠ .a7 → (xs.foldl popReg c).reg x = popInto c.memory c.sp.toNat xs c.reg x) ∧
      (xs.foldl popReg c).memory = c.memory ∧
      (xs.foldl popReg c).sp.toNat = c.sp.toNat + 4 * xs.length := by
  induction xs generalizing c with
  | nil => exact ⟨fun _ _ => rfl, rfl, rfl⟩
  | cons y xs ih =>
    rw [List.length_cons] at h
    rw [List.mem_cons, not_or] at hxs
    have hsp : (c.popReg y).sp.toNat = c.sp.toNat + 4 := by
      rw [← pop_sp (by omega)]
      exact congrArg UInt32.toNat (Function.update_of_ne hxs.1 ..)
    obtain ⟨hf, hm, hs⟩ := ih (c := c.popReg y) hxs.2 (by rw [hsp]; omega)
    rw [List.foldl_cons]
    refine ⟨?_, hm, ?_⟩
    · intro x hx
      rw [hf x hx, hsp, popInto]
      apply popInto_eq_of_eq
      by_cases hxy : x = y
      · rw [hxy, Function.update_self, popReg_self]
      · rw [Function.update_of_ne hxy, popReg_of_ne hxy hx]
    · rw [hs, hsp, List.length_cons]
      omega

/-! ### Frames -/

lemma toNat_frameWord (c : Coldfire) (v : UInt8) :
    (c.frameWord v).toNat = (4 + c.sp.toNat % 4) * 0x10000000 + v.toNat * 0x40000 + c.sr.toNat := by
  have hv := v.toNat_lt
  have hsr := c.sr.toNat_lt
  apply UInt32.toNat_ofNat_of_lt'
  rw [UInt32.size]
  omega

section Exception

variable {v : UInt8} {handler : UInt32} {sr : UInt16}

/-- The a7 from before a frame, aligned -/
lemma sp_align (h : 3 ≤ c.sp.toNat) :
    (c.withSp (c.sp - UInt32.ofNat (c.sp.toNat % 4))).sp.toNat = c.sp.toNat - c.sp.toNat % 4 := by
  rw [withSp_sp, toNat_sub (by omega)]

lemma exception_sp (v : UInt8) (handler : UInt32) (sr : UInt16) (h : 11 ≤ c.sp.toNat) :
    (c.exception v handler sr).sp.toNat = c.sp.toNat - c.sp.toNat % 4 - 8 := by
  have h₁ := sp_align (c := c) (by omega)
  have h₂ := push_sp (c := c.withSp (c.sp - UInt32.ofNat (c.sp.toNat % 4))) (w := c.pc) (by omega)
  have h₃ := push_sp (c := (c.withSp (c.sp - UInt32.ofNat (c.sp.toNat % 4))).push c.pc)
    (w := c.frameWord v) (by omega)
  refine Eq.trans h₃ ?_
  rw [h₂, h₁]
  omega

lemma exception_reg (hx : x ≠ .a7) : (c.exception v handler sr).reg x = c.reg x :=
  (push_reg hx (c.frameWord v)).trans ((push_reg hx c.pc).trans (withSp_reg hx _))

lemma exception_memory (h : 11 ≤ c.sp.toNat) :
    (c.exception v handler sr).memory = pushAll c.memory (c.sp.toNat - c.sp.toNat % 4)
      [c.pc, c.frameWord v] := by
  have h₁ := sp_align (c := c) (by omega)
  have hmem := @foldl_push_memory (c.withSp (c.sp - UInt32.ofNat (c.sp.toNat % 4)))
    [c.pc, c.frameWord v] (by simp only [List.length_cons, List.length_nil]; omega)
  rw [h₁] at hmem
  exact hmem

lemma read_exception (v : UInt8) (handler : UInt32) (sr : UInt16) (h : 11 ≤ c.sp.toNat) :
    read32 (c.exception v handler sr).memory (c.exception v handler sr).sp.toNat = c.frameWord v ∧
      read32 (c.exception v handler sr).memory ((c.exception v handler sr).sp.toNat + 4) = c.pc := by
  rw [exception_sp v handler sr h, exception_memory h, pushAll, pushAll, pushAll, Nat.sub_sub (_ - _) 4 4]
  refine ⟨read32_write32, ?_⟩
  have hnext : c.sp.toNat - c.sp.toNat % 4 - 8 + 4 = c.sp.toNat - c.sp.toNat % 4 - 4 := by omega
  rw [read32_write32_of_disjoint (by omega), hnext, read32_write32]

lemma rte_reg (hx : x ≠ .a7) : c.rte.reg x = c.reg x :=
  (withSp_reg hx _).trans ((withSp_reg hx _).trans (withSp_reg hx _))

lemma rte_sp (c : Coldfire) :
    c.rte.sp = c.pop.2.pop.2.sp + UInt32.ofNat (c.pop.1.toNat / 0x10000000 - 4) := by
  simp only [rte, sp, withSp, Function.update_self]

lemma rte_memory (c : Coldfire) : c.rte.memory = c.memory := by
  simp only [rte, withSp, pop]

lemma rte_sr (c : Coldfire) : c.rte.sr = UInt16.ofNat c.pop.1.toNat := rfl

/-- `RTE` undoes an exception, if the frame is as it was. -/
theorem rte_exception (c' : Coldfire) (h : 11 ≤ c.sp.toNat) (hsp : c'.sp = (c.exception v handler sr).sp)
    (hmem : ∀ x, c'.sp.toNat ≤ x → x < c.sp.toNat →
      c'.memory x = (c.exception v handler sr).memory x) :
    c'.rte.sp = c.sp ∧ c'.rte.pc = c.pc ∧ c'.rte.sr = c.sr := by
  have hlt := c.sp.toNat_lt
  have hs₀ : c'.sp.toNat = c.sp.toNat - c.sp.toNat % 4 - 8 := by rw [hsp, exception_sp v handler sr h]
  have hs₁ : c'.pop.2.sp.toNat = c'.sp.toNat + 4 := pop_sp (by omega)
  have hs₂ : c'.pop.2.pop.2.sp.toNat = c.sp.toNat - c.sp.toNat % 4 := by
    rw [pop_sp (by omega), hs₁, hs₀]
    omega
  obtain ⟨hword, hpc⟩ := read_exception v handler sr h
  rw [← hsp] at hword hpc
  rw [← read32_congr (fun x hx _ => hmem x hx (by omega))] at hword
  rw [← read32_congr (fun x _ _ => hmem x (by omega) (by omega)), ← hs₁] at hpc
  have hpop : c'.pop.1 = c.frameWord v := hword
  have hv := v.toNat_lt
  have hsr := c.sr.toNat_lt
  have hformat : c'.pop.1.toNat / 0x10000000 - 4 = c.sp.toNat % 4 := by
    rw [hpop, toNat_frameWord]
    omega
  refine ⟨?_, hpc, ?_⟩
  · rw [← UInt32.toNat_inj]
    have hadd : c'.pop.2.pop.2.sp.toNat + c.sp.toNat % 4 < 2 ^ 32 := by omega
    rw [rte_sp, hformat, toNat_add hadd, hs₂]
    omega
  · rw [rte_sr, ← UInt16.toNat_inj, UInt16.toNat_ofNat', hpop, toNat_frameWord]
    omega

end Exception

end Coldfire

end RtxKernel
