import RtxKernel.Lib.Bytes
import Mathlib.Data.List.Nodup

/-!
# A stack of words

A stack grows towards lower addresses, and its pointer is the address of the word on top. Words that were
pushed one after another are popped in the opposite order (`popInto_pushAll`), whatever is below the
pointer by then (`popInto_congr`), and pushing changes nothing but the words pushed (`pushAll_frame`).
-/

namespace RtxKernel

variable {κ : Type*} [DecidableEq κ]

/-- Push the words `ws`, the first one first. -/
def pushAll (m : Memory) (sp : Nat) : List UInt32 → Memory
  | [] => m
  | w :: ws => pushAll (write32 m (sp - 4) w) (sp - 4) ws

/-- Pop a word into each of the variables `xs`, the first one first. -/
def popInto (m : Memory) (sp : Nat) : List κ → (κ → UInt32) → κ → UInt32
  | [], f => f
  | x :: xs, f => popInto m (sp + 4) xs (Function.update f x (read32 m sp))

variable {m m' : Memory} {sp x : Nat} {ws : List UInt32} {xs : List κ} {f g : κ → UInt32} {k : κ}

lemma pushAll_frame (hx : x + 4 * ws.length < sp ∨ sp ≤ x) (hsp : 4 * ws.length ≤ sp) :
    pushAll m sp ws x = m x := by
  induction ws generalizing m sp with
  | nil => rfl
  | cons w ws ih =>
    rw [List.length_cons] at hx hsp
    rw [pushAll, ih (by omega) (by omega)]
    exact write32_frame (by omega)

lemma popInto_congr (h : ∀ x, sp ≤ x → x < sp + 4 * xs.length → m x = m' x) :
    popInto m sp xs f = popInto m' sp xs f := by
  induction xs generalizing sp f with
  | nil => rfl
  | cons k xs ih =>
    rw [List.length_cons] at h
    rw [popInto, popInto]
    rw [read32_congr fun x hx hx' => h x hx (by omega)]
    exact ih fun x hx hx' => h x (by omega) (by omega)

lemma popInto_append {ys : List κ} :
    popInto m sp (xs ++ ys) f = popInto m (sp + 4 * xs.length) ys (popInto m sp xs f) := by
  induction xs generalizing sp f with
  | nil => rfl
  | cons k xs ih =>
    rw [List.cons_append, popInto, popInto, ih, List.length_cons]
    congr 1
    omega

/-- A variable depends on its own value before only. -/
lemma popInto_eq_of_eq (h : f k = g k) : popInto m sp xs f k = popInto m sp xs g k := by
  induction xs generalizing sp f g with
  | nil => exact h
  | cons y xs ih =>
    rw [popInto, popInto]
    apply ih
    by_cases hky : k = y
    · rw [hky, Function.update_self, Function.update_self]
    · rw [Function.update_of_ne hky, Function.update_of_ne hky, h]

/-- What is pushed is popped in the opposite order. -/
theorem popInto_pushAll (hxs : xs.Nodup) (hsp : 4 * xs.length ≤ sp) (hk : k ∈ xs) :
    popInto (pushAll m sp (xs.map g)) (sp - 4 * xs.length) xs.reverse f k = g k := by
  induction xs generalizing m sp f with
  | nil => cases hk
  | cons y xs ih =>
    obtain ⟨hy, hxs⟩ := List.nodup_cons.mp hxs
    rw [List.length_cons] at hsp
    rw [List.map_cons, pushAll, List.reverse_cons, popInto_append, List.length_reverse, List.length_cons]
    have htop : sp - 4 * (xs.length + 1) = sp - 4 - 4 * xs.length := by omega
    have hbase : sp - 4 - 4 * xs.length + 4 * xs.length = sp - 4 := by omega
    rw [htop, hbase, popInto, popInto]
    by_cases hky : k = y
    · subst hky
      have hlen : (xs.map g).length = xs.length := List.length_map ..
      rw [Function.update_self]
      refine (read32_congr fun x hx _ => pushAll_frame (.inr hx) ?_).trans read32_write32
      omega
    · rw [Function.update_of_ne hky]
      exact ih hxs (by omega) ((List.mem_cons.mp hk).resolve_left hky)

end RtxKernel
