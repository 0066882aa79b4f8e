import RtxKernel.Lib.Text
import RtxKernel.Kernel.Basic

/-!
# Messages and strings of the processes

A message as a process sees it, and `str_copy` of `shared/rtx_util.c`, which copies the characters of a string
and not the null behind them. The blocks and records that it writes to are zeroed before, so that the copy is
a string again.
-/

namespace RtxKernel

/-- `CRT_PID` -/
def crtPid : UInt32 := 11

/-- `TYPE_REGISTER_CMD` -/
def typeRegisterCmd : UInt32 := 3

def typeField (e : Nat) : Nat := e + 8

/-- The type of the message in the envelope `e` -/
def typeOf (m : Memory) (e : Nat) : UInt32 := read32 m (typeField e)

/-- The size of the text of a message -/
def msgSize : Nat := 64

/-- `struct io_message` or `struct MessageEnvelope`, less the time and the white space, which no process uses -/
structure IoMessage where
  tx : UInt32
  rx : UInt32
  type : UInt32
  msg : Memory

/-- A call of `send_message` -/
structure Send where
  processId : UInt32
  message : IoMessage

/-- What `request_memory_block` returns. -/
def IoMessage.blank : IoMessage := ⟨0, 0, 0, fun _ => 0⟩

/-- The number of bytes that a pointer can address; a string ends before. -/
def addressSpace : Nat := 4294967296

/-- `str_copy`, of a literal -/
def strCopy (m : Memory) (text : List UInt8) (a : Nat) : Memory := fun x =>
  if a ≤ x ∧ x < a + text.length then text.getD (x - a) 0 else m x

/-- The loop of `str_copy` from the index `i` on, for at most `n` turns. -/
def strCopyLoop (src : Memory) : Nat → Nat → Memory → Option Memory
  | 0, _, _ => none
  | n + 1, i, dst =>
    if src i = 0 then some dst
    else strCopyLoop src n (i + 1) (Function.update dst i (src i))

/-- The bytes of a word, as they are stored at `a` -/
def wordBytes (a : Nat) (w : UInt32) : List (Nat × UInt8) :=
  [(a, UInt8.ofNat (w.toNat / 0x1000000)), (a + 1, UInt8.ofNat (w.toNat / 0x10000)),
    (a + 2, UInt8.ofNat (w.toNat / 0x100)), (a + 3, UInt8.ofNat w.toNat)]

/-- The first `j` of the bytes `l` are stored. -/
def Written (m : Memory) (l : List (Nat × UInt8)) (j : Nat) : Prop := ∀ z ∈ l.take j, m z.1 = z.2

/-- The bytes of a literal. -/
def bytes (s : String) : List UInt8 := s.toList.map fun c => UInt8.ofNat c.toNat

variable {src m : Memory} {a i n : Nat} {c : UInt8} {s t : List UInt8}

lemma strCopy_nil : strCopy m [] a = m := by
  funext x
  rw [strCopy, List.length_nil, if_neg (by omega)]

/-- A character is copied after the other. -/
lemma strCopy_cons : strCopy m (c :: t) a = strCopy (Function.update m a c) t (a + 1) := by
  funext x
  rw [strCopy, strCopy, List.length_cons]
  by_cases hx : a + 1 ≤ x ∧ x < a + 1 + t.length
  · obtain ⟨k, rfl⟩ : ∃ k, x = a + 1 + k := Nat.exists_eq_add_of_le hx.1
    have hleft : a + 1 + k - a = k + 1 := by omega
    rw [if_pos (by omega), if_pos hx, hleft, Nat.add_sub_cancel_left, List.getD_cons_succ]
  · rw [if_neg hx]
    by_cases ha : x = a
    · subst ha
      rw [if_pos (by omega), Nat.sub_self, Function.update_self, List.getD_cons_zero]
    · rw [if_neg (by omega), Function.update_of_ne ha]

/-- The loop copies the string. -/
lemma strCopyLoop_eq (h : StringAt src i t) (hn : t.length < n) :
    strCopyLoop src n i m = some (strCopy m t i) := by
  induction t generalizing i n m with
  | nil =>
    obtain ⟨n, rfl⟩ : ∃ k, n = k + 1 := Nat.exists_eq_add_one_of_ne_zero (Nat.ne_of_gt hn)
    rw [strCopyLoop, if_pos (StringAt.nil_iff.mp h), strCopy_nil]
  | cons c t ih =>
    obtain ⟨n, rfl⟩ : ∃ k, n = k + 1 := Nat.exists_eq_add_one_of_ne_zero (by omega)
    obtain ⟨hc, hne, hrest⟩ := h
    rw [strCopyLoop, hc, if_neg hne, ih hrest (Nat.lt_of_succ_lt_succ hn), strCopy_cons]

lemma strCopy_of_lt (h : i < a) : strCopy m t a i = m i := by
  rw [strCopy, if_neg (by omega)]

lemma strCopy_of_ge (h : a + t.length ≤ i) : strCopy m t a i = m i := by
  rw [strCopy, if_neg (by omega)]

/-- What stands behind a copy belongs to the string. -/
lemma stringAt_strCopy_iff (ht : (0 : UInt8) ∉ t) :
    StringAt (strCopy m t a) a s ↔ ∃ w, s = t ++ w ∧ StringAt m (a + t.length) w := by
  induction t generalizing a m s with
  | nil => simp [strCopy_nil]
  | cons c t ih =>
    rw [List.mem_cons, not_or] at ht
    have hfirst : strCopy m (c :: t) a a = c := by
      rw [strCopy_cons, strCopy_of_lt (Nat.lt_succ_self a), Function.update_self]
    have hrest : ∀ w, StringAt (Function.update m a c) (a + 1 + t.length) w ↔
        StringAt m (a + (c :: t).length) w := by
      intro w
      rw [List.length_cons, Nat.add_assoc, Nat.add_comm 1]
      constructor
      · intro h
        apply h.frame
        intro x hx _
        exact (Function.update_of_ne (by omega) _ _).symm
      · intro h
        apply h.frame
        intro x hx _
        exact Function.update_of_ne (by omega) _ _
    cases s with
    | nil =>
      rw [StringAt.nil_iff, hfirst]
      constructor
      · intro hc
        exact absurd hc.symm ht.1
      · rintro ⟨w, hw, -⟩
        cases hw
    | cons d s =>
      rw [StringAt.cons_iff, hfirst]
      rw [strCopy_cons, ih ht.2]
      simp only [hrest]
      constructor
      · rintro ⟨rfl, -, w, rfl, hw⟩
        exact ⟨w, rfl, hw⟩
      · rintro ⟨w, hw, hstring⟩
        obtain ⟨rfl, rfl⟩ := List.cons.inj hw
        exact ⟨rfl, Ne.symm ht.1, w, rfl, hstring⟩

/-- The copy is a string if a null stands behind it. -/
lemma stringAt_strCopy (ht : (0 : UInt8) ∉ t) (hz : m (a + t.length) = 0) :
    StringAt (strCopy m t a) a t :=
  (stringAt_strCopy_iff ht).mpr ⟨[], (List.append_nil t).symm, hz⟩

/-! ### Bytes that are stored one after another -/

section Stores

variable {m' : Memory} {l : List (Nat × UInt8)} {j : Nat} {z : Nat × UInt8} {w : UInt32}

lemma Written.zero : Written m l 0 := by
  intro z hz
  simp at hz

/-- The next byte is stored. -/
lemma Written.succ (h : Written m l j) (hnd : (l.map Prod.fst).Nodup) (hz : l[j]? = some z) :
    Written (Function.update m z.1 z.2) l (j + 1) := by
  obtain ⟨hj, rfl⟩ := List.getElem?_eq_some_iff.mp hz
  intro y hy
  rw [List.take_succ_eq_append_getElem hj, List.mem_append, List.mem_singleton] at hy
  rcases hy with hy | rfl
  · rw [Function.update_of_ne]
    · exact h y hy
    · obtain ⟨i, hi, rfl⟩ := List.getElem_of_mem hy
      rw [List.length_take] at hi
      rw [List.getElem_take]
      intro heq
      have hi' : i < (l.map Prod.fst).length := by
        rw [List.length_map]
        exact Nat.lt_of_lt_of_le hi (Nat.min_le_right _ _)
      have hj' : j < (l.map Prod.fst).length := by
        rw [List.length_map]
        exact hj
      have hget : (l.map Prod.fst)[i] = (l.map Prod.fst)[j] := by
        rw [List.getElem_map, List.getElem_map]
        exact heq
      have hij : i = j := hnd.getElem_inj_iff.mp hget
      omega
  · exact Function.update_self ..

lemma Written.congr (h : Written m l j) (hm : ∀ z ∈ l, m' z.1 = m z.1) : Written m' l j := by
  intro z hz
  rw [hm z (List.mem_of_mem_take hz)]
  exact h z hz

/-- A word whose bytes are stored -/
lemma read32_of_written (h : ∀ z ∈ wordBytes a w, m z.1 = z.2) : read32 m a = w := by
  simp only [wordBytes, List.forall_mem_cons] at h
  obtain ⟨h₀, h₁, h₂, h₃, -⟩ := h
  have hm : read32 m a = read32 (write32 m a w) a := by
    simp only [read32, h₀, h₁, h₂, h₃]
    simp [write32]
  rw [hm, read32_write32]

end Stores

end RtxKernel
