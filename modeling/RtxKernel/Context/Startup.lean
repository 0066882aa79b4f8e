import RtxKernel.Context.Switch
import RtxKernel.Kernel.Boot

/-!
# The stacks that start-up lays out

`malloc` hands out the memory behind `_end` in one direction and never takes any back. `initialize_processes`
gets with it, for every process, a PCB and a stack; `a[7]` points to the last byte of the stack, so that of a
stack of `n` bytes `n - 1` can be used. The stack of `main` is `main_stack` of `start.s`, below `_end`.
-/

namespace RtxKernel

structure Heap where
  heap : UInt32
  memory : Memory

namespace Heap

/-- `malloc` -/
def malloc (h : Heap) (size : UInt32) : UInt32 × Heap :=
  (h.heap, ⟨h.heap + size, fill h.memory h.heap.toNat size.toNat 0⟩)

/-- `sizeof(struct pib)` -/
def pibSize : UInt32 := 20

/-- `sizeof(pcb)` -/
def pcbSize : UInt32 := 84

/-- The calls of `create_pib`, for `n` processes -/
def createPibs (h : Heap) : Nat → Heap
  | 0 => h
  | n + 1 => (h.malloc pibSize).2.createPibs n

/-- The loop of `initialize_processes`, for processes with stacks of these sizes: the addresses of the
stacks -/
def createStacks (h : Heap) : List UInt32 → List UInt32 × Heap
  | [] => ([], h)
  | size :: sizes =>
    let (_, h) := h.malloc pcbSize
    let (stack, h) := h.malloc size
    let (rest, h) := h.createStacks sizes
    (stack :: rest, h)

/-- What the loop takes from the heap -/
def stacksTotal : List UInt32 → Nat
  | [] => 0
  | size :: sizes => pcbSize.toNat + size.toNat + stacksTotal sizes

variable {h : Heap} {n : Nat} {size : UInt32} {sizes : List UInt32}

lemma malloc_heap (hfit : h.heap.toNat + size.toNat < 2 ^ 32) :
    (h.malloc size).2.heap.toNat = h.heap.toNat + size.toNat := by
  rw [malloc, UInt32.toNat_add, Nat.mod_eq_of_lt hfit]

lemma createPibs_heap (hfit : h.heap.toNat + 20 * n < 2 ^ 32) :
    (h.createPibs n).heap.toNat = h.heap.toNat + 20 * n := by
  induction n generalizing h with
  | zero => rfl
  | succ n ih =>
    have hsize : pibSize.toNat = 20 := rfl
    have hm : (h.malloc pibSize).2.heap.toNat = h.heap.toNat + 20 := malloc_heap (by omega)
    rw [createPibs, ih (by omega), hm]
    omega

/-- The stacks lie one behind the other, in what the loop takes from the heap. -/
lemma createStacks_spec (h : Heap) (sizes : List UInt32) (hfit : h.heap.toNat + stacksTotal sizes < 2 ^ 32) :
    (∀ x ∈ (h.createStacks sizes).1.zip sizes,
      h.heap.toNat + pcbSize.toNat ≤ x.1.toNat ∧ x.1.toNat + x.2.toNat ≤ h.heap.toNat + stacksTotal sizes) ∧
    ((h.createStacks sizes).1.zip sizes).Pairwise fun x y => x.1.toNat + x.2.toNat ≤ y.1.toNat := by
  induction sizes generalizing h with
  | nil => exact ⟨by simp [createStacks], .nil⟩
  | cons size sizes ih =>
    have htotal : stacksTotal (size :: sizes) = pcbSize.toNat + size.toNat + stacksTotal sizes := rfl
    rw [htotal] at hfit ⊢
    have hpcb : (h.malloc pcbSize).2.heap.toNat = h.heap.toNat + pcbSize.toNat := malloc_heap (by omega)
    have hstack : ((h.malloc pcbSize).2.malloc size).2.heap.toNat =
        h.heap.toNat + pcbSize.toNat + size.toNat := by
      rw [malloc_heap (by omega), hpcb]
    obtain ⟨hin, hpw⟩ := ih (h := ((h.malloc pcbSize).2.malloc size).2) (by omega)
    rw [hstack] at hin
    have hfirst : ((h.malloc pcbSize).2.malloc size).1.toNat = h.heap.toNat + pcbSize.toNat := hpcb
    rw [createStacks]
    dsimp only [List.zip_cons_cons]
    refine ⟨?_, List.pairwise_cons.mpr ⟨?_, hpw⟩⟩
    · intro x hx
      rcases List.mem_cons.mp hx with rfl | hx
      · dsimp only
        omega
      · have hx' := hin x hx
        omega
    · intro x hx
      have hx' := hin x hx
      dsimp only
      omega

end Heap

/-- The sizes of the stacks, in the order of the calls of `create_pib`; those of the test processes are
`g_test_proc[i].sz_stack`. -/
def stackSizes (size : Fin 6 → UInt32) : List UInt32 := List.replicate 9 1024 ++ (List.finRange 6).map size

/-- What the linker and the registration of the test processes leave open: the stack sizes of these, the end
of the program, and `main_stack`. The memory of the board suffices for the stacks. -/
structure MemoryMap where
  size : Fin 6 → UInt32
  heapStart : UInt32
  mainStack : UInt32
  below : mainStack.toNat + 4096 ≤ heapStart.toNat
  fits : heapStart.toNat + 20 * 15 + Heap.stacksTotal (stackSizes size) < 2 ^ 32

namespace MemoryMap

variable (g : MemoryMap)

/-- The heap before the loop of `initialize_processes`; what is in it is of no matter here. -/
def heapAfterPibs : Heap := (Heap.mk g.heapStart fun _ => 0).createPibs 15

/-- The stack of a process, with its size -/
def stackOf (p : PcbPtr) : Option (UInt32 × UInt32) :=
  ((g.heapAfterPibs.createStacks (stackSizes g.size)).1.zip (stackSizes g.size))[p]?

/-- The number of the PCB of `main`, which is the last one -/
def mainPcb : PcbPtr := 15

def bottom (p : PcbPtr) : Nat :=
  if p = mainPcb then g.mainStack.toNat else
    match g.stackOf p with
    | some x => x.1.toNat
    | none => 0

/-- Where a7 points at first: for a process, `stack + stack_size - 1` -/
def initialSp (p : PcbPtr) : UInt32 :=
  if p = mainPcb then g.mainStack + 4096 else
    match g.stackOf p with
    | some x => x.1 + (x.2 - 1)
    | none => 0

variable {g} {p q : PcbPtr} {x y : UInt32 × UInt32}

lemma initialSp_main : (g.initialSp mainPcb).toNat = g.mainStack.toNat + 4096 := by
  have hbelow := g.below
  have hlt := g.heapStart.toNat_lt
  have h4096 : (4096 : UInt32).toNat = 4096 := rfl
  rw [initialSp, if_pos rfl, UInt32.toNat_add, h4096, Nat.mod_eq_of_lt (by omega)]

lemma heapAfterPibs_heap (g : MemoryMap) :
    g.heapAfterPibs.heap.toNat = g.heapStart.toNat + 20 * 15 := by
  have hfits := g.fits
  have hstart : (Heap.mk g.heapStart fun _ => 0).heap = g.heapStart := rfl
  exact Heap.createPibs_heap (by rw [hstart]; omega)

/-- A stack is in what `initialize_processes` takes from the heap. -/
lemma stackOf_spec (h : g.stackOf p = some x) :
    g.heapStart.toNat < x.1.toNat ∧ x.1.toNat + x.2.toNat < 2 ^ 32 := by
  have hfits := g.fits
  have hheap := heapAfterPibs_heap g
  obtain ⟨hin, -⟩ := g.heapAfterPibs.createStacks_spec (stackSizes g.size) (by omega)
  have hx := hin x (List.mem_of_getElem? h)
  omega

lemma bottom_of_stackOf (hp : p ≠ mainPcb) (h : g.stackOf p = some x) : g.bottom p = x.1.toNat := by
  rw [bottom, if_neg hp, h]

lemma initialSp_of_stackOf (hp : p ≠ mainPcb) (h : g.stackOf p = some x) :
    (g.initialSp p).toNat = x.1.toNat + x.2.toNat - 1 := by
  obtain ⟨hlow, hhigh⟩ := stackOf_spec h
  have h1 : (1 : UInt32).toNat = 1 := rfl
  rw [initialSp, if_neg hp, h]
  dsimp only
  rw [UInt32.toNat_add, UInt32.toNat_sub, h1]
  omega

lemma initialSp_of_none (hp : p ≠ mainPcb) (h : g.stackOf p = none) : g.initialSp p = 0 := by
  rw [initialSp, if_neg hp, h]

/-- Two stacks lie one behind the other. -/
lemma stackOf_apart (hpq : p < q) (hp : g.stackOf p = some x) (hq : g.stackOf q = some y) :
    x.1.toNat + x.2.toNat ≤ y.1.toNat := by
  have hfits := g.fits
  have hheap := heapAfterPibs_heap g
  obtain ⟨-, hpw⟩ := g.heapAfterPibs.createStacks_spec (stackSizes g.size) (by omega)
  obtain ⟨hp', rfl⟩ := List.getElem?_eq_some_iff.mp hp
  obtain ⟨hq', rfl⟩ := List.getElem?_eq_some_iff.mp hq
  exact List.pairwise_iff_getElem.mp hpw p q hp' hq' hpq

/-- An address in the stack of `p` is in the stack of `main`, or in a part of the heap. -/
lemma range_cases {a : Nat} (h₁ : g.bottom p ≤ a) (h₂ : a < (g.initialSp p).toNat) :
    p = mainPcb ∧ a < g.heapStart.toNat ∨
      p ≠ mainPcb ∧ ∃ x, g.stackOf p = some x ∧ x.1.toNat ≤ a ∧ a < x.1.toNat + x.2.toNat := by
  by_cases hp : p = mainPcb
  · subst hp
    rw [initialSp_main] at h₂
    exact .inl ⟨rfl, Nat.lt_of_lt_of_le h₂ g.below⟩
  · refine .inr ⟨hp, ?_⟩
    cases hx : g.stackOf p with
    | none =>
      rw [initialSp_of_none hp hx] at h₂
      exact absurd h₂ (Nat.not_lt_zero _)
    | some x =>
      rw [bottom_of_stackOf hp hx] at h₁
      rw [initialSp_of_stackOf hp hx] at h₂
      exact ⟨x, rfl, h₁, by omega⟩

/-- The stacks of start-up have no address in common. -/
theorem apart (p q : PcbPtr) (a : Nat) (hp₁ : g.bottom p ≤ a) (hp₂ : a < (g.initialSp p).toNat)
    (hq₁ : g.bottom q ≤ a) (hq₂ : a < (g.initialSp q).toNat) : p = q := by
  rcases range_cases hp₁ hp₂ with ⟨rfl, hp⟩ | ⟨hp, x, hx, hx₁, hx₂⟩
  · rcases range_cases hq₁ hq₂ with ⟨rfl, -⟩ | ⟨-, y, hy, hy₁, -⟩
    · rfl
    · have hlow := (stackOf_spec hy).1
      omega
  · rcases range_cases hq₁ hq₂ with ⟨rfl, hq⟩ | ⟨-, y, hy, hy₁, hy₂⟩
    · have hlow := (stackOf_spec hx).1
      omega
    · rcases Nat.lt_trichotomy p q with hpq | hpq | hpq
      · have hle := stackOf_apart hpq hx hy
        omega
      · exact hpq
      · have hle := stackOf_apart hpq hy hx
        omega

variable (g)

/-- The stacks that start-up lays out -/
def layout : Stacks := ⟨g.bottom, fun p => (g.initialSp p).toNat, apart⟩

end MemoryMap

/-- The board when `main` calls `release_processor()`. The fields `a` and `d` of its own PCB have not been
written, and come zeroed from `malloc`. -/
def Board.boot (g : MemoryMap) (priority : Fin 6 → UInt8) (c : Coldfire) : Option Board := do
  let s ← Scheduler.initializeProcesses priority
  let saved := fun p x => if p ≠ s.mainProcess ∧ x = .a7 then g.initialSp p else 0
  return ⟨c, { s with runningProcess := some s.mainProcess }, saved, s.mainProcess⟩

/-- `initialize_processes` creates the PCB of `main` last. -/
lemma mainProcess_initializeProcesses {priority : Fin 6 → UInt8} {s : Scheduler}
    (h : Scheduler.initializeProcesses priority = some s) : s.mainProcess = MemoryMap.mainPcb := by
  obtain ⟨s₁, a, hs, hc⟩ := Created.empty.foldlM (initBlocks priority)
  have hcount : s₁.pcbCount = (initBlocks priority).length := hc.rep.count.trans hc.count
  rw [Scheduler.initializeProcesses, hs] at h
  rw [← Option.some.inj h]
  exact hcount

end RtxKernel
