import Mathlib.Data.List.Nodup
import Mathlib.Logic.Function.Basic

/-!
# Singly linked lists in a `next` map

A linked structure is a map `next : α → Option α`; `none` is the null pointer. `Segment next h l e`
says that following `next` from the link `h` visits the nodes `l` and arrives at the link `e`, and
`Chain next h l` that it then ends at null. A chain visits no node twice (`Chain.nodup`), so
`Chain` is the statement that a list is acyclic and null-terminated.

The updates a program makes to such a list are those of `Function.update`: a node outside the chain
is written without effect (`Chain.update_of_notMem`), a node is linked behind the last one
(`Chain.append_last`), the first is taken off (`Chain.tail`), and one in the middle is
unlinked from its predecessor (`Chain.unlink`). The loop that searches a list is `find`, which
gives up after a number of steps: on a chain it is `List.find?` (`Chain.find_eq`).
-/

namespace RtxKernel

universe u
variable {α : Type u}

/-- Following `next` from `h` visits `l` and arrives at the link `e`. -/
def Segment (next : α → Option α) : Option α → List α → Option α → Prop
  | h, [], e => h = e
  | h, a :: l, e => h = some a ∧ Segment next (next a) l e

/-- Following `next` from `h` visits `l` and ends at null. -/
def Chain (next : α → Option α) (h : Option α) (l : List α) : Prop :=
  Segment next h l none

instance Segment.decidable [DecidableEq α] (next : α → Option α) :
    (h : Option α) → (l : List α) → (e : Option α) → Decidable (Segment next h l e)
  | h, [], e => inferInstanceAs (Decidable (h = e))
  | h, a :: l, e =>
    have := Segment.decidable next (next a) l e
    inferInstanceAs (Decidable (h = some a ∧ Segment next (next a) l e))

instance [DecidableEq α] (next : α → Option α) (h : Option α) (l : List α) :
    Decidable (Chain next h l) :=
  inferInstanceAs (Decidable (Segment next h l none))

/-- `for (a = h; a != NULL; a = next a) if (test a) return a;`, given up after `n` nodes. The
outer `none` is a loop that has not come to an end. -/
def find (next : α → Option α) (test : α → Bool) : Nat → Option α → Option (Option α)
  | _, none => some none
  | 0, some _ => none
  | n + 1, some a => if test a then some (some a) else find next test n (next a)

/-- The same loop with a second pointer `prev` to the node before: `prev` and the node found. -/
def findWithPrev (next : α → Option α) (test : α → Bool) :
    Nat → Option α → Option α → Option (Option (Option α × α))
  | _, _, none => some none
  | 0, _, some _ => none
  | n + 1, prev, some a =>
    if test a then some (some (prev, a)) else findWithPrev next test n (some a) (next a)

variable {next next' : α → Option α} {h e m : Option α} {l l' : List α} {a b : α}

@[simp] lemma segment_nil : Segment next h [] e ↔ h = e := Iff.rfl

@[simp] lemma segment_cons :
    Segment next h (a :: l) e ↔ h = some a ∧ Segment next (next a) l e := Iff.rfl

@[simp] lemma chain_nil : Chain next h [] ↔ h = none := Iff.rfl

@[simp] lemma chain_cons : Chain next h (a :: l) ↔ h = some a ∧ Chain next (next a) l := Iff.rfl

lemma segment_append :
    Segment next h (l ++ l') e ↔ ∃ m, Segment next h l m ∧ Segment next m l' e := by
  induction l generalizing h with
  | nil => simp
  | cons a l ih => simp [ih, and_assoc]

lemma chain_append :
    Chain next h (l ++ l') ↔ ∃ m, Segment next h l m ∧ Chain next m l' := segment_append

lemma segment_congr (hn : ∀ a ∈ l, next a = next' a) :
    Segment next h l e ↔ Segment next' h l e := by
  induction l generalizing h with
  | nil => simp
  | cons a l ih =>
    rw [segment_cons, segment_cons, hn a (by simp), ih fun b hb => hn b (by simp [hb])]

namespace Chain

lemma congr (hn : ∀ a ∈ l, next a = next' a) : Chain next h l ↔ Chain next' h l :=
  segment_congr hn

/-- The nodes of a chain are determined by the link it starts from. -/
theorem unique (hl : Chain next h l) (hl' : Chain next h l') : l = l' := by
  induction l generalizing h l' with
  | nil =>
    rw [chain_nil] at hl
    cases l' with
    | nil => rfl
    | cons b l' => simp [hl] at hl'
  | cons a l ih =>
    obtain ⟨rfl, ht⟩ := chain_cons.mp hl
    cases l' with
    | nil => simp at hl'
    | cons b l' =>
      obtain ⟨hab, ht'⟩ := chain_cons.mp hl'
      obtain rfl : a = b := Option.some.inj hab
      rw [ih ht ht']

/-- A null-terminated list is acyclic: revisiting a node would repeat its tail forever. -/
theorem nodup (hl : Chain next h l) : l.Nodup := by
  induction l generalizing h with
  | nil => simp
  | cons a l ih =>
    obtain ⟨rfl, htail⟩ := chain_cons.mp hl
    refine List.nodup_cons.mpr ⟨fun ha => ?_, ih htail⟩
    obtain ⟨p, s, rfl⟩ := List.append_of_mem ha
    obtain ⟨m, -, hm⟩ := chain_append.mp htail
    -- both `a :: s` and `a :: (p ++ a :: s)` are the chain that starts at `a`
    have hs : Chain next (some a) (a :: s) := ⟨rfl, (chain_cons.mp hm).2⟩
    have hlen := congrArg List.length (hs.unique hl)
    simp at hlen
    omega

/-- A node is the first one, or the link of a node before it. -/
lemma exists_pred (hl : Chain next h l) (ha : a ∈ l) (hh : h ≠ some a) : ∃ b ∈ l, next b = some a := by
  induction l generalizing h with
  | nil => cases ha
  | cons b l ih =>
    obtain ⟨rfl, ht⟩ := chain_cons.mp hl
    have hal : a ∈ l := (List.mem_cons.mp ha).resolve_left fun hab => hh (hab ▸ rfl)
    by_cases hb : next b = some a
    · exact ⟨b, by simp, hb⟩
    · obtain ⟨c, hc, hca⟩ := ih ht hal hb
      exact ⟨c, List.mem_cons_of_mem _ hc, hca⟩

lemma head_eq_none_iff (hl : Chain next h l) : h = none ↔ l = [] := by
  cases l with
  | nil => simpa using hl
  | cons a l => simp [(chain_cons.mp hl).1]

lemma head_eq (hl : Chain next h l) : h = l.head? := by
  cases l with
  | nil => simpa using hl
  | cons a l => simpa using (chain_cons.mp hl).1

/-- Taking the first node off. -/
lemma tail (hl : Chain next (some a) l) : ∃ t, l = a :: t ∧ Chain next (next a) t := by
  cases l with
  | nil => simp at hl
  | cons b t =>
    obtain ⟨hab, ht⟩ := chain_cons.mp hl
    obtain rfl : a = b := Option.some.inj hab
    exact ⟨t, rfl, ht⟩

section Update

variable [DecidableEq α]

/-- Writing the link of a node outside the chain leaves the chain alone. -/
lemma update_of_notMem (ha : a ∉ l) (v : Option α) :
    Chain (Function.update next a v) h l ↔ Chain next h l :=
  congr fun b hb => Function.update_of_ne (by rintro rfl; exact ha hb) _ _

lemma segment_update_of_notMem (ha : a ∉ l) (v : Option α) :
    Segment (Function.update next a v) h l e ↔ Segment next h l e :=
  segment_congr fun b hb => Function.update_of_ne (by rintro rfl; exact ha hb) _ _

/-- Linking `a` behind the last node `b`. -/
theorem append_last (hl : Chain next h (l ++ [b])) (ha : a ∉ l ++ [b]) :
    Chain (Function.update (Function.update next b (some a)) a none) h (l ++ [b] ++ [a]) := by
  have hb : b ∉ l := fun hb => (List.nodup_append.mp hl.nodup).2.2 b hb b (by simp) rfl
  have hab : a ≠ b := by
    rintro rfl
    simp at ha
  obtain ⟨m, hm, hmb⟩ := chain_append.mp hl
  rw [List.append_assoc]
  refine chain_append.mpr ⟨m, ?_, ?_⟩
  · rwa [segment_update_of_notMem (by simp_all), segment_update_of_notMem hb]
  · simpa [hab.symm] using (chain_cons.mp hmb).1

/-- Unlinking `a` from its predecessor `b`. -/
theorem unlink (hl : Chain next h (l ++ b :: a :: l')) :
    Chain (Function.update (Function.update next b (next a)) a none) h (l ++ b :: l') := by
  have hnd := hl.nodup
  simp only [List.nodup_append, List.nodup_cons, List.mem_cons, not_or] at hnd
  obtain ⟨-, ⟨⟨hba, hbl⟩, hal, -⟩, hdis⟩ := hnd
  have hb : b ∉ l := fun hb => hdis b hb b (by simp) rfl
  have ha : a ∉ l := fun ha => hdis a ha a (by simp) rfl
  obtain ⟨m, hm, hmb⟩ := chain_append.mp hl
  obtain ⟨rfl, hba', hl'⟩ : m = some b ∧ next b = some a ∧ Chain next (next a) l' := by
    simpa using hmb
  refine chain_append.mpr ⟨some b, ?_, rfl, ?_⟩
  · rwa [segment_update_of_notMem ha, segment_update_of_notMem hb]
  · rw [Function.update_of_ne hba, Function.update_self]
    exact (update_of_notMem hal _).mpr ((update_of_notMem hbl _).mpr hl')

end Update

/-- On a chain the search loop comes to an end and is `List.find?`. -/
theorem find_eq (hl : Chain next h l) (test : α → Bool) {n : Nat} (hn : l.length ≤ n) :
    find next test n h = some (l.find? test) := by
  induction l generalizing h n with
  | nil =>
    rw [chain_nil] at hl
    subst hl
    cases n <;> rfl
  | cons a l ih =>
    obtain ⟨rfl, htail⟩ := chain_cons.mp hl
    obtain ⟨n, rfl⟩ : ∃ k, n = k + 1 := ⟨n - 1, by simp at hn; omega⟩
    cases ht : test a with
    | true => simp [find, ht]
    | false => simp [find, ht, ih htail (n := n) (by simpa using hn)]

/-- The search with a second pointer fails like the other one. -/
theorem findWithPrev_of_forall_not (hl : Chain next h l) {test : α → Bool} {n : Nat} {prev : Option α}
    (hn : l.length ≤ n) (ht : ∀ x ∈ l, test x = false) :
    findWithPrev next test n prev h = some none := by
  induction l generalizing h n prev with
  | nil =>
    rw [chain_nil] at hl
    subst hl
    cases n <;> rfl
  | cons a l ih =>
    obtain ⟨rfl, htail⟩ := chain_cons.mp hl
    obtain ⟨n, rfl⟩ : ∃ k, n = k + 1 := ⟨n - 1, by simp at hn; omega⟩
    rw [findWithPrev, if_neg (by simp [ht a])]
    exact ih htail (by simpa using hn) fun x hx => ht x (by simp [hx])

/-- The search with a second pointer finds a node with its predecessor, or the initial `prev`. -/
theorem findWithPrev_of_first (hl : Chain next h (l ++ a :: l')) (test : α → Bool) {n : Nat}
    (prev : Option α) (hn : l.length < n) (ha : test a = true) (ht : ∀ x ∈ l, test x = false) :
    findWithPrev next test n prev h = some (some (l.getLast?.or prev, a)) := by
  induction l generalizing h n prev with
  | nil =>
    obtain ⟨rfl, -⟩ := chain_cons.mp hl
    obtain ⟨n, rfl⟩ : ∃ k, n = k + 1 := ⟨n - 1, by simp at hn; omega⟩
    simp [findWithPrev, ha]
  | cons b l ih =>
    obtain ⟨rfl, htail⟩ := chain_cons.mp hl
    obtain ⟨n, rfl⟩ : ∃ k, n = k + 1 := ⟨n - 1, by simp at hn; omega⟩
    rw [findWithPrev, if_neg (by simp [ht b]),
      ih htail (some b) (by simpa using hn) fun x hx => ht x (by simp [hx])]
    cases l <;> simp [List.getLast?_cons]

/-- The link of a node is the node listed after it. -/
lemma next_eq (hl : Chain next h (l ++ a :: l')) : next a = l'.head? := by
  obtain ⟨m, -, hm⟩ := chain_append.mp hl
  exact (chain_cons.mp hm).2.head_eq

/-- The search for the last node. -/
lemma find_isNone_next (hl : Chain next h (l ++ [a])) :
    (l ++ [a]).find? (fun b => (next b).isNone) = some a := by
  have hlast : next a = none := by simpa using next_eq hl
  rw [List.find?_append, List.find?_eq_none.mpr]
  · simp [hlast]
  · intro b hb
    obtain ⟨p, s, rfl⟩ := List.append_of_mem hb
    have hb' : next b = (s ++ [a]).head? := next_eq (l := p) (by simpa using hl)
    cases s <;> simp [hb']

/-- The search for the predecessor of `a`. -/
lemma find_pred [DecidableEq α] (hl : Chain next h (l ++ b :: a :: l')) :
    (l ++ b :: a :: l').find? (fun c => next c = some a) = some b := by
  have hnd := hl.nodup
  have hb : next b = some a := by simpa using next_eq hl
  rw [List.find?_append, List.find?_eq_none.mpr]
  · simp [hb]
  · intro c hc hca
    -- a second predecessor would list `a` twice
    obtain ⟨p, s, rfl⟩ := List.append_of_mem hc
    have hc' : next c = (s ++ b :: a :: l').head? := next_eq (l := p) (by simpa using hl)
    simp only [decide_eq_true_eq] at hca
    cases s with
    | nil =>
      obtain rfl : b = a := by simpa [hca] using hc'.symm
      simp [List.nodup_append] at hnd
    | cons d s =>
      obtain rfl : d = a := by simpa [hca] using hc'.symm
      simp [List.nodup_append] at hnd

end Chain

end RtxKernel
