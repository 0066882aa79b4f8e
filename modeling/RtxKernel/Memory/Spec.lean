import RtxKernel.Memory.Basic

/-!
# The abstract pool

The two lists of the pool as lists, and the invariant `p.WF base`: together they hold each of the
blocks once, and the blocks lie one behind the other from `base` on.
-/

namespace RtxKernel.Spec

structure Pool where
  start : BlockPtr → Nat
  pid : BlockPtr → UInt32
  available : List BlockPtr
  used : List BlockPtr
  memory : Memory

namespace Pool

variable (p : Pool)

def list : BlockQueue → List BlockPtr
  | .availableBlocks => p.available
  | .usedBlocks => p.used

@[simp] lemma list_availableBlocks : p.list .availableBlocks = p.available := rfl

@[simp] lemma list_usedBlocks : p.list .usedBlocks = p.used := rfl

/-- The block that starts at an address. -/
def lookup (a : Nat) : Option BlockPtr :=
  (p.available ++ p.used).find? fun b => p.start b = a

def setPid (b : BlockPtr) (v : UInt32) : Pool := { p with pid := Function.update p.pid b v }

def reassign (a : Nat) (newPid : UInt32) : Option Pool :=
  (p.lookup a).map fun b => p.setPid b newPid

def take (current : UInt32) : Option (Nat × Pool) :=
  match p.available with
  | [] => none
  | b :: t => some (p.start b, { p.setPid b current with available := t, used := p.used ++ [b] })

/-- Return a used block of the current process; the codes are those of `release_memory_block`. -/
def release (a : Nat) (current : UInt32) : UInt32 × Pool :=
  if p.used = [] then (1, p)
  else
    match p.lookup a with
    | none => (2, p)
    | some b =>
      if b ∈ p.used ∧ p.pid b = current then
        (0, { p.setPid b noPid with
          available := p.available ++ [b]
          used := p.used.erase b
          memory := fill p.memory (p.start b) memBlockSize 0 })
      else (3, p)

/-! ### The invariant -/

structure WF (p : Pool) (base : Nat) : Prop where
  perm : (p.available ++ p.used).Perm (List.range memBlockCount)
  start_eq : ∀ b < memBlockCount, p.start b = base + b * memBlockSize

variable {p} {base a a' b b' : Nat} {current newPid : UInt32}

namespace WF

lemma nodup (h : p.WF base) : (p.available ++ p.used).Nodup := h.perm.nodup_iff.mpr List.nodup_range

lemma mem_iff (h : p.WF base) : b ∈ p.available ++ p.used ↔ b < memBlockCount := by
  rw [h.perm.mem_iff, List.mem_range]

lemma lt_of_mem (h : p.WF base) {q : BlockQueue} (hb : b ∈ p.list q) : b < memBlockCount := by
  rw [← h.mem_iff]
  cases q with
  | availableBlocks => exact List.mem_append_left _ hb
  | usedBlocks => exact List.mem_append_right _ hb

lemma nodup_list (h : p.WF base) (q : BlockQueue) : (p.list q).Nodup := by
  cases q with
  | availableBlocks => exact h.nodup.of_append_left
  | usedBlocks => exact h.nodup.of_append_right

lemma length_eq (h : p.WF base) : p.available.length + p.used.length = memBlockCount := by
  simpa using h.perm.length_eq

/-- The blocks do not overlap. -/
lemma start_inj (h : p.WF base) (hb : b < memBlockCount) (hb' : b' < memBlockCount)
    (he : p.start b = p.start b') : b = b' := by
  rw [h.start_eq b hb, h.start_eq b' hb', memBlockSize] at he
  omega

lemma lookup_eq_some_iff (h : p.WF base) :
    p.lookup a = some b ↔ b < memBlockCount ∧ p.start b = a := by
  constructor
  · intro hl
    exact ⟨h.mem_iff.mp (List.mem_of_find?_eq_some hl), by simpa using List.find?_some hl⟩
  · rintro ⟨hb, rfl⟩
    rw [lookup]
    cases hx : (p.available ++ p.used).find? fun x => p.start x = p.start b with
    | none =>
      have hnot := List.find?_eq_none.mp hx b (h.mem_iff.mpr hb)
      simp at hnot
    | some x =>
      have hxb : p.start x = p.start b := by simpa using List.find?_some hx
      rw [h.start_inj (h.mem_iff.mp (List.mem_of_find?_eq_some hx)) hb hxb]

lemma setPid (h : p.WF base) (b : BlockPtr) (v : UInt32) : (p.setPid b v).WF base :=
  ⟨h.perm, h.start_eq⟩

lemma take (h : p.WF base) {p' : Pool} (hp : p.take current = some (a, p')) : p'.WF base := by
  rw [Pool.take] at hp
  cases ha : p.available with
  | nil => simp [ha] at hp
  | cons b t =>
    simp only [ha, Option.some.injEq, Prod.mk.injEq] at hp
    obtain ⟨-, rfl⟩ := hp
    refine ⟨?_, h.start_eq⟩
    have hperm := h.perm
    rw [ha] at hperm
    refine List.Perm.trans ?_ hperm
    rw [← List.append_assoc]
    exact List.perm_append_singleton b (t ++ p.used)

/-- A release is rejected, or it moves a used block of the caller to the available ones. -/
lemma release_cases (h : p.WF base) (a : Nat) (current : UInt32) :
    (∃ c, c ≠ 0 ∧ p.release a current = (c, p)) ∨
      ∃ b ∈ p.used, p.start b = a ∧ p.pid b = current ∧ p.release a current =
        (0, { p.setPid b noPid with
          available := p.available ++ [b]
          used := p.used.erase b
          memory := fill p.memory (p.start b) memBlockSize 0 }) := by
  rw [Pool.release]
  split_ifs with hu
  · exact .inl ⟨1, by decide, rfl⟩
  cases hl : p.lookup a with
  | none => exact .inl ⟨2, by decide, rfl⟩
  | some b =>
    dsimp only
    split_ifs with hb
    · exact .inr ⟨b, hb.1, (h.lookup_eq_some_iff.mp hl).2, hb.2, rfl⟩
    · exact .inl ⟨3, by decide, rfl⟩

lemma release (h : p.WF base) : (p.release a current).2.WF base := by
  rcases h.release_cases a current with ⟨c, -, he⟩ | ⟨b, hb, -, -, he⟩
  · rw [he]
    exact h
  · rw [he]
    refine ⟨?_, h.start_eq⟩
    refine List.Perm.trans ?_ h.perm
    rw [List.append_assoc]
    exact (List.perm_cons_erase hb).symm.append_left p.available

end WF

end Pool

end RtxKernel.Spec
