import RtxKernel.Context.Coldfire
import RtxKernel.Lib.Run
import RtxKernel.Core.Refinement

/-!
# Registers and stacks at the process switch

`proc_switch_handler` pushes the registers on the stack of the process that leaves the CPU, pops them into local
variables and stores these in its PCB; then it pushes what the PCB of the next process holds, still on the old
stack, and pops it into the registers.

The compiled C code between these groups of `asm` statements keeps a7, and works on the stack below the frame
of the handler, whose frame pointer is a6 (`CCode`). The switch is taken as one step, from its first push, behind
`atomic_up()`, to its last pop. Runs with an interrupt in between are left out: the code would take one behind the
`atomic_down()` of a process that starts, before the pops, and in the whole switch if it is entered with
`atomic_status` at 1 or more and the mask at 0.
-/

namespace RtxKernel

namespace Coldfire

/-! ### The registers in `proc_switch_handler` -/

/-- The registers that are pushed at the entry -/
def pushOrder : List Reg :=
  [.a7, .d0, .d1, .d2, .d3, .d4, .d5, .d6, .d7, .a0, .a1, .a2, .a3, .a4, .a5, .a6]

/-- The local variables into which they are popped -/
def localOrder : List Reg :=
  [.a6, .a5, .a4, .a3, .a2, .a1, .a0, .d7, .d6, .d5, .d4, .d3, .d2, .d1, .d0, .a7]

/-- The fields of the PCB of the next process that are pushed -/
def fieldOrder : List Reg :=
  [.a7, .a6, .a5, .a4, .a3, .a2, .a1, .a0, .d7, .d6, .d5, .d4, .d3, .d2, .d1, .d0]

/-- The registers into which they are popped, before a7 -/
def popOrder : List Reg :=
  [.d0, .d1, .d2, .d3, .d4, .d5, .d6, .d7, .a0, .a1, .a2, .a3, .a4, .a5, .a6]

def saveRegisters (c : Coldfire) : Coldfire := pushOrder.foldl pushReg c

/-- What the local variables hold before they are assigned is not read. -/
def toLocals (c : Coldfire) : Registers × Coldfire := localOrder.foldl popLocal (fun _ => 0, c)

def pushFields (c : Coldfire) (saved : Registers) : Coldfire := (fieldOrder.map saved).foldl push c

def loadRegisters (c : Coldfire) : Coldfire := (popOrder.foldl popReg c).popReg .a7

variable {c c' : Coldfire} {x : Nat} {r : Reg} {saved : Registers}

lemma mem_pushOrder (r : Reg) : r ∈ pushOrder := by
  cases r <;> decide

lemma mem_fieldOrder (r : Reg) : r ∈ fieldOrder := by
  cases r <;> decide

lemma saveRegisters_eq (c : Coldfire) : c.saveRegisters = (pushOrder.map c.reg).foldl push c :=
  foldl_pushReg (by decide)

lemma saveRegisters_sp (h : 64 ≤ c.sp.toNat) : c.saveRegisters.sp.toNat = c.sp.toNat - 64 := by
  rw [saveRegisters_eq, foldl_push_sp (by simpa [pushOrder] using h)]
  rfl

lemma saveRegisters_frame (h : 64 ≤ c.sp.toNat) (hx : x + 64 < c.sp.toNat ∨ c.sp.toNat ≤ x) :
    c.saveRegisters.memory x = c.memory x := by
  have hlen : (pushOrder.map c.reg).length = 16 := rfl
  rw [saveRegisters_eq, foldl_push_memory (by rw [hlen]; omega)]
  exact pushAll_frame (by rw [hlen]; omega) (by rw [hlen]; omega)

/-- The local variables get the registers as they were at the entry, and a7 is what it was. -/
theorem toLocals_saveRegisters (h : 64 ≤ c.sp.toNat) :
    c.saveRegisters.toLocals.1 = c.reg ∧ c.saveRegisters.toLocals.2.sp = c.sp ∧
      c.saveRegisters.toLocals.2.memory = c.saveRegisters.memory := by
  have hlt := c.sp.toNat_lt
  have hsp := saveRegisters_sp h
  have hlen : localOrder.length = 16 := rfl
  obtain ⟨hreg, hmem, hs⟩ := @foldl_popLocal c.saveRegisters localOrder (fun _ => 0)
    (by rw [hsp, hlen]; omega)
  refine ⟨?_, ?_, hmem⟩
  · funext r
    have hall := @popInto_pushAll _ _ c.memory c.sp.toNat pushOrder (fun _ => 0) c.reg r (by decide) h
      (mem_pushOrder r)
    rw [toLocals, hreg, hsp, saveRegisters_eq, foldl_push_memory (by simpa [pushOrder] using h)]
    exact hall
  · rw [← UInt32.toNat_inj, toLocals, hs, hsp, hlen]
    omega

lemma pushFields_sp (h : 64 ≤ c.sp.toNat) (saved : Registers) :
    (c.pushFields saved).sp.toNat = c.sp.toNat - 64 := by
  rw [pushFields, foldl_push_sp (by simpa [fieldOrder] using h)]
  rfl

lemma pushFields_frame (h : 64 ≤ c.sp.toNat) (hx : x + 64 < c.sp.toNat ∨ c.sp.toNat ≤ x) :
    (c.pushFields saved).memory x = c.memory x := by
  have hlen : (fieldOrder.map saved).length = 16 := rfl
  rw [pushFields, foldl_push_memory (by rw [hlen]; omega)]
  exact pushAll_frame (by rw [hlen]; omega) (by rw [hlen]; omega)

/-- What is popped into a7 at the end comes from behind the other registers. -/
lemma loadRegisters_eq (h : c.sp.toNat + 64 ≤ 2 ^ 32) :
    c.loadRegisters.reg r = popInto c.memory c.sp.toNat fieldOrder.reverse c.reg r ∧
      c.loadRegisters.memory = c.memory := by
  have hlen : popOrder.length = 15 := rfl
  obtain ⟨hreg, hmem, hsp⟩ := @foldl_popReg c popOrder (by decide) (by rw [hlen]; omega)
  have horder : fieldOrder.reverse = popOrder ++ [.a7] := rfl
  rw [horder, popInto_append, popInto, popInto, loadRegisters, hlen]
  generalize popOrder.foldl popReg c = e at hreg hmem hsp
  rw [hlen] at hsp
  rw [popReg_memory]
  refine ⟨?_, hmem⟩
  by_cases hr : r = .a7
  · rw [hr, Function.update_self, popReg_self, hmem, hsp]
  · rw [Function.update_of_ne hr, popReg_of_ne hr hr, hreg r hr]

/-- The registers are loaded with what was pushed, if the C code in between leaves it on the stack. -/
theorem loadRegisters_pushFields (h : 64 ≤ c.sp.toNat) (hsp : c'.sp = (c.pushFields saved).sp)
    (hmem : ∀ x, c'.sp.toNat ≤ x → x < c.sp.toNat → c'.memory x = (c.pushFields saved).memory x) :
    c'.loadRegisters.reg = saved ∧ c'.loadRegisters.memory = c'.memory := by
  have hlt := c.sp.toNat_lt
  have hs : c'.sp.toNat = c.sp.toNat - 64 := by rw [hsp, pushFields_sp h]
  have hroom : c'.sp.toNat + 64 ≤ 2 ^ 32 := by omega
  refine ⟨?_, (loadRegisters_eq (r := .a7) hroom).2⟩
  funext r
  have hlen : fieldOrder.reverse.length = 16 := rfl
  have hcongr := @popInto_congr _ _ _ _ _ fieldOrder.reverse c'.reg fun x hx hx' =>
    hmem x hx (by rw [hlen] at hx'; omega)
  have hpop := @popInto_pushAll _ _ c.memory c.sp.toNat fieldOrder c'.reg saved r (by decide) h (mem_fieldOrder r)
  rw [(loadRegisters_eq hroom).1, hcongr, hs, pushFields,
    foldl_push_memory (by simpa [fieldOrder] using h)]
  exact hpop

end Coldfire

/-! ### Stacks -/

/-- The stack of every process is a range of addresses of its own. The pointer to the empty stack is
`top`. -/
structure Stacks where
  bottom : PcbPtr → Nat
  top : PcbPtr → Nat
  apart : ∀ p q x, bottom p ≤ x → x < top p → bottom q ≤ x → x < top q → p = q

/-- An address in the stack of `p` -/
def Stacks.On (l : Stacks) (p : PcbPtr) (x : Nat) : Prop := l.bottom p ≤ x ∧ x < l.top p

/-- Compiled code between two `asm` statements, on the stack of `p`: a7 is as before, and of the stacks it
changes only what is below `limit` in that of `p`. -/
structure CCode (l : Stacks) (p : PcbPtr) (limit : Nat) (c c' : Coldfire) : Prop where
  sp : c'.sp = c.sp
  kept : ∀ q x, l.On q x → (q = p → limit ≤ x) → c'.memory x = c.memory x

/-- The CPU, the scheduler, and the arrays `a` and `d` of the PCBs. The field `stackOf` is read by no
function: it is the process on whose stack the CPU works, also when that has ended. -/
structure Board where
  cpu : Coldfire
  sched : Scheduler
  saved : PcbPtr → Registers
  stackOf : PcbPtr

namespace Board

/-- The registers are stored in the PCB of the running process. Without one they stay on the stack. -/
def saveRunning (m : Board) : Coldfire × (PcbPtr → Registers) :=
  let c := m.cpu.saveRegisters
  match m.sched.runningProcess with
  | some r =>
    let (locals, c) := c.toLocals
    (c, Function.update m.saved r locals)
  | none => (c, m.saved)

/-- What `proc_switch_handler` needs below a7: twice the registers -/
def switchRoom : Nat := 128

/-- `proc_switch_handler`, from its first push to its last pop, without an interrupt. It runs on the stack of the
process that leaves the CPU, and its frame begins at a6. -/
inductive Switch (l : Stacks) (m : Board) : Board → Prop
  | mk {s : Scheduler} {r : PcbPtr} {c₁ c₂ : Coldfire} (hs : m.sched.procSwitchHandler = some s)
      (hr : s.runningProcess = some r) (room : l.bottom m.stackOf + switchRoom ≤ m.cpu.sp.toNat)
      (frame : m.cpu.sp.toNat ≤ m.cpu.fp.toNat) (top : m.cpu.fp.toNat ≤ l.top m.stackOf)
      (save : CCode l m.stackOf m.cpu.fp.toNat m.saveRunning.1 c₁)
      (push : CCode l m.stackOf (c₁.pushFields (m.saveRunning.2 r)).sp.toNat
        (c₁.pushFields (m.saveRunning.2 r)) c₂) :
      Switch l m ⟨c₂.loadRegisters, s, m.saveRunning.2, r⟩

end Board

end RtxKernel
