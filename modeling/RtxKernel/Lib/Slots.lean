import Mathlib.Data.List.Basic
import Mathlib.Logic.Function.Basic

/-!
# Arrays of slots used as lists

An array of pointers `s`, with `none` for a null slot, is used as a list: entries are stored in the
first null slot and, when one is removed, those behind it are shifted down. `Packed s l` says that
`s` holds exactly the entries `l`, from slot 0 on and without a hole.

The three loops of such code are `freeSlot` (the search for a null slot), `search` (the search for
an entry, which stops at the first null slot) and `shiftDown` (the compaction behind a removed
entry). On a packed array they are `List.length`, `List.findIdx?` and `List.eraseIdx`.
-/

namespace RtxKernel

universe u
variable {α : Type u}

/-- `for (; i < n; i++) if (s[i] == NULL) break;` with `r = n - i`, giving the final `i`. -/
def freeSlotFrom (s : Nat → Option α) : Nat → Nat → Nat
  | 0, i => i
  | r + 1, i => if (s i).isNone then i else freeSlotFrom s r (i + 1)

/-- The first null slot of the array `s` of `n` slots, or `n`. -/
def freeSlot (s : Nat → Option α) (n : Nat) : Nat := freeSlotFrom s n 0

/-- `for (; i < n; i++) { if (s[i] == NULL) break; if (test(s[i])) return i; }`, `r = n - i`. -/
def searchFrom (s : Nat → Option α) (test : α → Bool) : Nat → Nat → Option Nat
  | 0, _ => none
  | r + 1, i =>
    match s i with
    | none => none
    | some a => if test a then some i else searchFrom s test r (i + 1)

/-- `for (; k < n; k++) { if (s[k] == NULL) break; s[k - 1] = s[k]; s[k] = NULL; }`, with
`r = n - k`, giving the array and the final `k`. -/
def shiftDown : Nat → Nat → (Nat → Option α) → (Nat → Option α) × Nat
  | 0, k, s => (s, k)
  | r + 1, k, s =>
    if (s k).isNone then (s, k)
    else shiftDown r (k + 1) (Function.update (Function.update s (k - 1) (s k)) k none)

/-- The array holds `l`, from slot 0 on and without a hole. -/
def Packed (s : Nat → Option α) (l : List α) : Prop := ∀ j, s j = l[j]?

namespace Packed

variable {s : Nat → Option α} {l : List α} {n i k r : Nat} {a : α}

/-- The entries, read slot by slot -/
lemma filterMap_range (h : Packed s l) (hn : l.length ≤ n) : (List.range n).filterMap s = l := by
  have htake : ∀ m, (List.range m).filterMap s = l.take m := by
    intro m
    induction m with
    | zero => rfl
    | succ m ih =>
      rw [List.range_succ, List.filterMap_append, ih, List.take_add_one, ← h m]
      cases hs : s m with
      | none => simp [hs]
      | some x => simp [hs]
  rw [htake, List.take_of_length_le hn]

lemma empty : Packed (fun _ => (none : Option α)) [] := fun j => by simp

lemma eq_some_iff (h : Packed s l) : s i = some a ↔ l[i]? = some a := by rw [h i]

lemma freeSlotFrom_eq (h : Packed s l) (hi : i ≤ l.length) (hn : l.length ≤ i + r) :
    freeSlotFrom s r i = l.length := by
  induction r generalizing i with
  | zero => simp only [freeSlotFrom]; omega
  | succ r ih =>
    rw [freeSlotFrom, h i]
    by_cases hlt : i < l.length
    · rw [if_neg (by simp [hlt]), ih hlt (by omega)]
    · rw [if_pos (by simpa using hlt)]
      omega

/-- The first null slot is the one behind the last entry. -/
theorem freeSlot_eq (h : Packed s l) (hn : l.length ≤ n) : freeSlot s n = l.length :=
  h.freeSlotFrom_eq (Nat.zero_le _) (by omega)

/-- Storing in the first null slot appends. -/
theorem insert (h : Packed s l) (a : α) :
    Packed (Function.update s l.length (some a)) (l ++ [a]) := by
  intro j
  rcases Nat.lt_trichotomy j l.length with hj | rfl | hj
  · rw [Function.update_of_ne (Nat.ne_of_lt hj), h j, List.getElem?_append_left hj]
  · simp
  · rw [Function.update_of_ne (Nat.ne_of_gt hj), h j, List.getElem?_eq_none (Nat.le_of_lt hj),
      List.getElem?_eq_none (by simp; omega)]

lemma searchFrom_eq (h : Packed s l) (test : α → Bool) (hn : l.length ≤ i + r) :
    searchFrom s test r i = ((l.drop i).findIdx? test).map (· + i) := by
  induction r generalizing i with
  | zero => simp [searchFrom, List.drop_eq_nil_of_le (show l.length ≤ i by omega)]
  | succ r ih =>
    rw [searchFrom, h i]
    by_cases hlt : i < l.length
    · rw [List.getElem?_eq_getElem hlt, List.drop_eq_getElem_cons hlt, List.findIdx?_cons]
      cases ht : test l[i] with
      | true => simp [ht]
      | false =>
        have hsucc : (fun j => j + (i + 1)) = (fun j => j + i) ∘ fun j => j + 1 :=
          funext fun j => by simp only [Function.comp_apply]; omega
        simp [ht, ih (i := i + 1) (by omega), hsucc]
    · rw [List.getElem?_eq_none (by omega), List.drop_eq_nil_of_le (by omega)]
      rfl

/-- The search for an entry finds the first one that passes the test. -/
theorem search_eq (h : Packed s l) (test : α → Bool) (hn : l.length ≤ n) :
    searchFrom s test n 0 = l.findIdx? test := by
  rw [h.searchFrom_eq test (by omega)]
  simp

/-- The state of the compaction loop at `k`: entries below `k - 1` are shifted, slot `k - 1` is
the hole, and those from `k` on are where they were. -/
private def Shifting (l : List α) (i k : Nat) (s : Nat → Option α) : Prop :=
  ∀ j, s j = if k ≤ j then l[j]? else if j + 1 = k then none else (l.eraseIdx i)[j]?

private lemma Shifting.step (h : Shifting l i k s) (hik : i < k) (hk : k < l.length) :
    Shifting l i (k + 1) (Function.update (Function.update s (k - 1) (s k)) k none) := by
  intro j
  have hsk : s k = l[k]? := by simpa using h k
  rcases Nat.lt_trichotomy j k with hj | rfl | hj
  · rw [Function.update_of_ne (Nat.ne_of_lt hj), if_neg (by omega), if_neg (by omega)]
    by_cases hj' : j = k - 1
    · -- the entry of slot `k` moves into the hole
      rw [hj', Function.update_self, hsk, List.getElem?_eraseIdx_of_ge (by omega),
        Nat.sub_add_cancel (by omega)]
    · rw [Function.update_of_ne hj', h j, if_neg (by omega), if_neg (by omega)]
  · rw [Function.update_self, if_neg (by omega), if_pos rfl]
  · rw [Function.update_of_ne (Nat.ne_of_gt hj), Function.update_of_ne (by omega), h j, if_pos (Nat.le_of_lt hj),
      if_pos (by omega)]

private lemma Shifting.packed (h : Shifting l i l.length s) (hi : i < l.length) :
    Packed s (l.eraseIdx i) := by
  intro j
  have hlen := List.length_eraseIdx_of_lt hi
  rw [h j]
  split_ifs with h₁ h₂
  · rw [List.getElem?_eq_none h₁, List.getElem?_eq_none (by omega)]
  · rw [List.getElem?_eq_none (by omega)]
  · rfl

private lemma Shifting.shiftDown (h : Shifting l i k s) (hik : i < k) (hk : k ≤ l.length)
    (hn : l.length ≤ k + r) :
    Packed (shiftDown r k s).1 (l.eraseIdx i) ∧ (RtxKernel.shiftDown r k s).2 = l.length := by
  induction r generalizing k s with
  | zero =>
    obtain rfl : k = l.length := by omega
    exact ⟨h.packed hik, rfl⟩
  | succ r ih =>
    have hsk : s k = l[k]? := by simpa using h k
    by_cases hlt : k < l.length
    · have hne : (s k).isNone = false := by simp [hsk, hlt]
      rw [RtxKernel.shiftDown, if_neg (by simp [hne])]
      exact ih (h.step hik hlt) (by omega) (by omega) (by omega)
    · obtain rfl : k = l.length := by omega
      have hnone : (s l.length).isNone = true := by simp [hsk]
      rw [RtxKernel.shiftDown, if_pos hnone]
      exact ⟨h.packed hik, rfl⟩

/-- Emptying slot `i` and compacting erases the entry; the loop ends behind the last entry. -/
theorem delete (h : Packed s l) (hi : i < l.length) (hn : l.length ≤ n) :
    Packed (shiftDown (n - (i + 1)) (i + 1) (Function.update s i none)).1 (l.eraseIdx i) ∧
      (shiftDown (n - (i + 1)) (i + 1) (Function.update s i none)).2 = l.length := by
  refine Shifting.shiftDown (fun j => ?_) (by omega) (by omega) (by omega)
  rcases Nat.lt_trichotomy j i with hj | rfl | hj
  · rw [Function.update_of_ne (Nat.ne_of_lt hj), if_neg (by omega), if_neg (by omega), h j,
      List.getElem?_eraseIdx_of_lt hj]
  · rw [Function.update_self, if_neg (by omega), if_pos rfl]
  · rw [Function.update_of_ne (Nat.ne_of_gt hj), if_pos (by omega), h j]

end Packed

/-! ### Erasing an entry, seen through a filter -/

section Filter

variable {l : List α} {i : Nat} {a : α} (test : α → Bool)

lemma filter_eraseIdx_of_not (hi : l[i]? = some a) (ha : test a = false) :
    (l.eraseIdx i).filter test = l.filter test := by
  induction l generalizing i with
  | nil => simp at hi
  | cons b l ih =>
    cases i with
    | zero =>
      obtain rfl : b = a := by simpa using hi
      simp [ha]
    | succ i =>
      rw [List.getElem?_cons_succ] at hi
      rw [List.eraseIdx_cons_succ, List.filter_cons, List.filter_cons, ih hi]

/-- Erasing the first entry that passes the test erases the head of the filtered list. -/
lemma filter_eraseIdx_of_first (hi : l[i]? = some a) (ha : test a = true)
    (hfirst : ∀ j < i, ∀ b, l[j]? = some b → test b = false) :
    l.filter test = a :: (l.eraseIdx i).filter test := by
  induction l generalizing i with
  | nil => simp at hi
  | cons b l ih =>
    cases i with
    | zero =>
      obtain rfl : b = a := by simpa using hi
      simp [ha]
    | succ i =>
      rw [List.getElem?_cons_succ] at hi
      have hb : test b = false := hfirst 0 (Nat.zero_lt_succ i) b rfl
      rw [List.eraseIdx_cons_succ, List.filter_cons, List.filter_cons, hb]
      apply ih hi
      intro j hj c hc
      exact hfirst (j + 1) (Nat.succ_lt_succ hj) c (by simpa using hc)

end Filter

/-- Counting slots counts the entries, and the slots behind the last one. -/
theorem countP_range_getElem? {l : List α} {n : Nat} (hn : l.length ≤ n) (p : Option α → Bool) :
    (List.range n).countP (fun i => p l[i]?) =
      (l.countP fun a => p (some a)) + if p none = true then n - l.length else 0 := by
  induction l generalizing n with
  | nil =>
    cases hp : p none with
    | true => simp [hp]
    | false => simp [hp]
  | cons b l ih =>
    obtain ⟨n, rfl⟩ : ∃ m, n = m + 1 := Nat.exists_eq_add_one_of_ne_zero (by simp at hn; omega)
    rw [List.range_succ_eq_map, List.countP_cons, List.countP_map, List.countP_cons]
    have hrec := ih (Nat.le_of_succ_le_succ hn)
    simp only [Function.comp_def, Nat.succ_eq_add_one, List.getElem?_cons_succ,
      List.getElem?_cons_zero, List.length_cons, Nat.add_sub_add_right]
    rw [hrec]
    omega

lemma countP_range_any {l : List α} {n : Nat} (hn : l.length ≤ n) (p : α → Bool) :
    (List.range n).countP (fun i => l[i]?.any p) = l.countP p := by
  have hcount := countP_range_getElem? hn fun x => x.any p
  simpa using hcount

end RtxKernel
