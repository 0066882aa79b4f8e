import RtxKernel.Process.Script

/-!
# Rules for the code of processes

The loads, stores and calls as programs, and for each of them the weakest precondition in terms of the messages in
the envelopes that the process holds: a store into a field changes the message (`View.Has.setTx` and the others), a
request brings a blank one, and a message that is sent is noted and gone.
-/

namespace RtxKernel

namespace Script

variable {α : Type}

def load (x : Nat) : Script UInt8 := Program.call (Call.load x)

def store (x : Nat) (v : UInt8) : Script Unit := Program.call (Call.store x v)

def getTime : Script UInt32 := Program.call Call.getTime

def request : Script Nat := Program.call Call.request

def send (processId : UInt32) (envelope : Nat) : Script UInt32 := Program.call (Call.send processId envelope)

def delayedSend (processId : UInt32) (envelope : Nat) (delay : UInt32) : Script UInt32 :=
  Program.call (Call.delayedSend processId envelope delay)

def release (envelope : Nat) : Script UInt32 := Program.call (Call.release envelope)

def write (c : UInt8) : Script Unit := Program.call (Call.write c)

def setPriority (pid priority : Int32) : Script UInt32 := Program.call (Call.setPriority pid priority)

/-- The code does not come back. -/
def fail : Script α := Program.step Call.fail nofun

/-- The word at `a`, most significant byte first -/
def load32 (a : Nat) : Script UInt32 := do
  let b₀ ← load a
  let b₁ ← load (a + 1)
  let b₂ ← load (a + 2)
  let b₃ ← load (a + 3)
  return UInt32.ofNat (b₀.toNat * 0x1000000 + b₁.toNat * 0x10000 + b₂.toNat * 0x100 + b₃.toNat)

/-- The bytes `t` are stored from `a` on. -/
def storeText (a : Nat) : List UInt8 → Script Unit
  | [] => pure ()
  | c :: t => do
    store a c
    storeText (a + 1) t

def store32 (a : Nat) (w : UInt32) : Script Unit := storeText a ((wordBytes a w).map Prod.snd)

/-- The loop of `str_copy` from `from` to private memory, from the index `i` on, for at most `n` turns -/
def copyFrom (src : Nat) : Nat → Nat → Memory → Script Memory
  | 0, _, _ => fail
  | n + 1, i, dst => do
    let c ← load (src + i)
    if c = 0 then return dst else copyFrom src n (i + 1) (Function.update dst i c)

/-- The loop of `str_copy` from private memory to `dst`, from the index `i` on, for at most `n` turns -/
def copyTo (src : Memory) (dst : Nat) : Nat → Nat → Script Unit
  | 0, _ => fail
  | n + 1, i =>
    if src i = 0 then pure () else do
      store (dst + i) (src i)
      copyTo src dst n (i + 1)

/-- `msg->msg[i]` -/
def loadMsg (msg i : Nat) : Script UInt8 := load (msgField msg + i)

def storeMsg (msg i : Nat) (c : UInt8) : Script Unit := store (msgField msg + i) c

/-- The command `name` is registered at the keyboard decoder. -/
def register (name : List UInt8) : Script Unit := do
  let msg ← request
  store32 (typeField msg) typeRegisterCmd
  storeText (msgField msg) name
  let _ ← send kcdPid msg

end Script

/-- The process holds the message `m` in the envelope `e`. -/
structure View.Has (v : View) (e : Nat) (m : IoMessage) : Prop where
  held : e ∈ v.held
  message : messageAt v.memory e = m

/-- In `w` the process holds the same envelopes, and the message `m` in the envelope `e`. -/
structure View.Edits (v : View) (e : Nat) (m : IoMessage) (w : View) : Prop where
  has : w.Has e m
  held : w.held = v.held
  deeds : w.deeds = v.deeds
  frame : ∀ x, x < e ∨ e + memBlockSize ≤ x → w.memory x = v.memory x

/-- In `w` the process has been granted the envelope `e`. -/
structure View.Grants (v : View) (e : Nat) (w : View) : Prop where
  has : w.Has e .blank
  held : w.held = e :: v.held
  deeds : w.deeds = v.deeds
  frame : ∀ x, x < e ∨ e + memBlockSize ≤ x → w.memory x = v.memory x
  apart : ∀ x ∈ v.held, x + memBlockSize ≤ e ∨ e + memBlockSize ≤ x

/-- In `w` the process does not hold the envelope `e` any more, and has done `l`. -/
structure View.Gives (v : View) (e : Nat) (l : List Deed) (w : View) : Prop where
  held : w.held = v.held.filter (· ≠ e)
  deeds : w.deeds = v.deeds ++ l
  memory : w.memory = v.memory

namespace View.Has

variable {v : View} {e i x : Nat} {m : IoMessage} {t : List UInt8}

lemma owns (h : v.Has e m) (hx : e ≤ x) (hx' : x < e + memBlockSize) : v.Owns x := ⟨e, h.held, hx, hx'⟩

lemma owns_msg (h : v.Has e m) (hi : i < msgSize) : v.Owns (msgField e + i) := by
  simp only [msgSize] at hi
  apply h.owns
  · simp only [msgField]
    omega
  · simp only [msgField, memBlockSize]
    omega

lemma msg (h : v.Has e m) (hi : i < msgSize) : v.memory (msgField e + i) = m.msg i := by
  rw [← h.message, messageAt]
  exact (if_pos hi).symm

/-- A text in the message -/
lemma stringAt (h : v.Has e m) (ht : StringAt m.msg i t) (hlen : i + t.length < msgSize) :
    StringAt v.memory (msgField e + i) t := by
  induction t generalizing i with
  | nil => exact (h.msg (by simpa using hlen)).trans ht
  | cons c t ih =>
    rw [List.length_cons] at hlen
    exact ⟨(h.msg (by omega)).trans ht.1, ht.2.1, ih ht.2.2 (by omega)⟩

lemma edits (h : v.Has e m) {memory : Memory} {m' : IoMessage} (hm : messageAt memory e = m')
    (hframe : ∀ x, x < e ∨ e + memBlockSize ≤ x → memory x = v.memory x) :
    v.Edits e m' { v with memory := memory } := ⟨⟨h.held, hm⟩, rfl, rfl, hframe⟩

/-- A message in another block -/
lemma of_frame (h : v.Has e m) {w : View} {y : Nat} (hheld : e ∈ w.held)
    (hframe : ∀ x, x < y ∨ y + memBlockSize ≤ x → w.memory x = v.memory x)
    (hapart : e + memBlockSize ≤ y ∨ y + memBlockSize ≤ e) : w.Has e m := by
  refine ⟨hheld, (messageAt_congr ?_).trans h.message⟩
  intro x hx hx'
  exact hframe x (by omega)

end View.Has

/-! ### The rules -/

namespace Script

variable {allowed : Deed → Prop} {v : View} {e i x a n : Nat} {b c : UInt8} {m : IoMessage} {word pid : UInt32}
  {t : List UInt8} {src dst : Memory}

section Single

variable {Q : UInt8 → View → Prop} {U : Unit → View → Prop} {W : UInt32 → View → Prop}

lemma wp_load (hx : v.Owns x) (hQ : Q (v.memory x) v) : (load x).wp (contract allowed) Q v := by
  refine ⟨hx, ?_⟩
  rintro _ _ ⟨rfl, rfl⟩
  exact hQ

lemma wp_store (hx : v.Owns x) (hU : U () (v.store x b)) : (store x b).wp (contract allowed) U v := by
  refine ⟨hx, ?_⟩
  rintro _ _ rfl
  exact hU

lemma wp_getTime (hW : ∀ now, W now (v.note [.time now])) : getTime.wp (contract allowed) W v := by
  refine ⟨trivial, ?_⟩
  rintro now _ rfl
  exact hW now

/-- A block that is requested is blank. -/
lemma wp_request {Q : Nat → View → Prop} (hQ : ∀ x w, v.Grants x w → Q x w) :
    request.wp (contract allowed) Q v := by
  refine ⟨trivial, ?_⟩
  rintro x _ ⟨hapart, rfl⟩
  exact hQ x _ ⟨⟨List.mem_cons_self, messageAt_fill⟩, rfl, rfl, fun _ => fill_frame, hapart⟩

/-- A message that is sent is noted, and gone. -/
lemma wp_send (h : v.Has e m) (hall : allowed (.sent ⟨pid, m⟩))
    (hW : ∀ code w, v.Gives e [.sent ⟨pid, m⟩] w → W code w) : (send pid e).wp (contract allowed) W v := by
  refine ⟨⟨h.held, by rwa [h.message]⟩, ?_⟩
  rintro code _ rfl
  exact hW code _ ⟨rfl, by rw [← h.message]; rfl, rfl⟩

lemma wp_delayedSend {delay : UInt32} (h : v.Has e m) (hall : allowed (.delayed ⟨pid, m⟩ delay))
    (hW : ∀ code w, v.Gives e [.delayed ⟨pid, m⟩ delay] w → W code w) :
    (delayedSend pid e delay).wp (contract allowed) W v := by
  refine ⟨⟨h.held, by rwa [h.message]⟩, ?_⟩
  rintro code _ rfl
  exact hW code _ ⟨rfl, by rw [← h.message]; rfl, rfl⟩

lemma wp_release (he : e ∈ v.held) (hW : ∀ code w, v.Gives e [] w → W code w) :
    (release e).wp (contract allowed) W v := by
  refine ⟨he, ?_⟩
  rintro code _ rfl
  exact hW code _ ⟨rfl, (List.append_nil _).symm, rfl⟩

lemma wp_setPriority {p q : Int32} (hW : ∀ code, W code (v.note [.setPriority p q code])) :
    (setPriority p q).wp (contract allowed) W v := by
  refine ⟨trivial, ?_⟩
  rintro code _ rfl
  exact hW code

lemma wp_write (hU : U () (v.note [.written b])) : (write b).wp (contract allowed) U v := by
  refine ⟨trivial, ?_⟩
  rintro _ _ rfl
  exact hU

end Single

section Texts

variable {Q : UInt8 → View → Prop} {U : Unit → View → Prop} {W : UInt32 → View → Prop} {D : Memory → View → Prop}

lemma wp_load32 (h : ∀ x, a ≤ x → x < a + 4 → v.Owns x) (hW : W (read32 v.memory a) v) :
    (load32 a).wp (contract allowed) W v := by
  simp only [load32, Program.wp_bind]
  refine wp_load (h _ (by omega) (by omega)) ?_
  refine wp_load (h _ (by omega) (by omega)) ?_
  refine wp_load (h _ (by omega) (by omega)) ?_
  exact wp_load (h _ (by omega) (by omega)) hW

lemma wp_storeText (h : ∀ x, a ≤ x → x < a + t.length → v.Owns x)
    (hU : U () { v with memory := strCopy v.memory t a }) : (storeText a t).wp (contract allowed) U v := by
  induction t generalizing a v with
  | nil => rwa [strCopy_nil] at hU
  | cons c t ih =>
    rw [List.length_cons] at h
    rw [storeText, Program.wp_bind]
    refine wp_store (h a (Nat.le_refl a) (by omega)) (ih ?_ ?_)
    · exact fun x hx hx' => h x (by omega) (by omega)
    · rwa [strCopy_cons] at hU

lemma strCopy_word (m : Memory) (a : Nat) (w : UInt32) :
    strCopy m ((wordBytes a w).map Prod.snd) a = write32 m a w := by
  funext x
  simp only [wordBytes, List.map_cons, List.map_nil, strCopy_cons, strCopy_nil, write32, Function.update_apply]
  split_ifs <;> first | rfl | omega

lemma wp_store32 (h : ∀ x, a ≤ x → x < a + 4 → v.Owns x)
    (hU : U () { v with memory := write32 v.memory a word }) : (store32 a word).wp (contract allowed) U v := by
  refine wp_storeText h ?_
  rwa [strCopy_word]

/-- The string at `src + i` is copied. -/
lemma wp_copyFrom {src : Nat} {dst : Memory} (ht : StringAt v.memory (src + i) t)
    (h : ∀ x, src + i ≤ x → x ≤ src + i + t.length → v.Owns x) (hn : t.length < n) (hD : D (strCopy dst t i) v) :
    (copyFrom src n i dst).wp (contract allowed) D v := by
  induction t generalizing i n dst with
  | nil =>
    obtain ⟨n, rfl⟩ : ∃ k, n = k + 1 := Nat.exists_eq_add_one_of_ne_zero (Nat.ne_of_gt hn)
    rw [copyFrom, Program.wp_bind]
    refine wp_load (h _ (Nat.le_refl _) (Nat.le_add_right _ _)) ?_
    rw [StringAt.nil_iff.mp ht, if_pos rfl]
    rwa [strCopy_nil] at hD
  | cons c t ih =>
    rw [List.length_cons] at hn h
    obtain ⟨n, rfl⟩ : ∃ k, n = k + 1 := Nat.exists_eq_add_one_of_ne_zero (by omega)
    obtain ⟨hc, hne, hrest⟩ := ht
    rw [copyFrom, Program.wp_bind]
    refine wp_load (h _ (Nat.le_refl _) (Nat.le_add_right _ _)) ?_
    rw [hc, if_neg hne]
    refine ih hrest (fun x hx hx' => h x (by omega) (by omega)) (by omega) ?_
    rwa [strCopy_cons] at hD

lemma wp_copyTo {src : Memory} {dst : Nat} (ht : StringAt src i t)
    (h : ∀ x, dst + i ≤ x → x < dst + i + t.length → v.Owns x) (hn : t.length < n)
    (hU : U () { v with memory := strCopy v.memory t (dst + i) }) :
    (copyTo src dst n i).wp (contract allowed) U v := by
  induction t generalizing i n v with
  | nil =>
    obtain ⟨n, rfl⟩ : ∃ k, n = k + 1 := Nat.exists_eq_add_one_of_ne_zero (Nat.ne_of_gt hn)
    rw [copyTo, if_pos (StringAt.nil_iff.mp ht)]
    rwa [strCopy_nil] at hU
  | cons c t ih =>
    rw [List.length_cons] at hn h
    obtain ⟨n, rfl⟩ : ∃ k, n = k + 1 := Nat.exists_eq_add_one_of_ne_zero (by omega)
    obtain ⟨hc, hne, hrest⟩ := ht
    rw [copyTo, hc, if_neg hne, Program.wp_bind]
    refine wp_store (h _ (Nat.le_refl _) (by omega)) ?_
    refine ih hrest (fun x hx hx' => h x (by omega) (by omega)) (by omega) ?_
    rwa [strCopy_cons] at hU

end Texts

end Script

namespace View.Has

open Script

variable {allowed : Deed → Prop} {v : View} {e i n : Nat} {b : UInt8} {m : IoMessage} {word : UInt32}
  {t : List UInt8} {Q : UInt8 → View → Prop} {U : Unit → View → Prop} {W : UInt32 → View → Prop}

lemma loadMsg (h : v.Has e m) (hi : i < msgSize) (hQ : Q (m.msg i) v) :
    (Script.loadMsg e i).wp (contract allowed) Q v :=
  wp_load (h.owns_msg hi) (by rwa [h.msg hi])

lemma storeMsg (h : v.Has e m) (hi : i < msgSize)
    (hU : ∀ w, v.Edits e { m with msg := Function.update m.msg i b } w → U () w) :
    (Script.storeMsg e i b).wp (contract allowed) U v := by
  have hlt : i < 64 := hi
  refine wp_store (h.owns_msg hi) (hU _ (h.edits ?_ ?_))
  · rw [messageAt_setMsg hi, h.message]
  · intro x hx
    exact Function.update_of_ne (by simp only [msgField, memBlockSize] at hx ⊢; omega) _ _

/-- The header is in the envelope. -/
lemma owns_header (h : v.Has e m) {a : Nat} (ha : e ≤ a) (ha' : a + 4 ≤ e + headerSize) :
    ∀ x, a ≤ x → x < a + 4 → v.Owns x := by
  simp only [headerSize] at ha'
  intro x hx hx'
  exact h.owns (by omega) (by simp only [memBlockSize]; omega)

lemma owns_tx (h : v.Has e m) : ∀ x, txField e ≤ x → x < txField e + 4 → v.Owns x :=
  h.owns_header (by simp [txField]) (by simp only [txField, headerSize]; omega)

lemma owns_rx (h : v.Has e m) : ∀ x, rxField e ≤ x → x < rxField e + 4 → v.Owns x :=
  h.owns_header (by simp [rxField]) (by simp only [rxField, headerSize]; omega)

lemma owns_type (h : v.Has e m) : ∀ x, typeField e ≤ x → x < typeField e + 4 → v.Owns x :=
  h.owns_header (by simp [typeField]) (by simp only [typeField, headerSize]; omega)

lemma loadTx (h : v.Has e m) (hW : W m.tx v) : (load32 (txField e)).wp (contract allowed) W v := by
  obtain ⟨hheld, rfl⟩ := h
  exact wp_load32 (owns_tx ⟨hheld, rfl⟩) hW

lemma loadType (h : v.Has e m) (hW : W m.type v) : (load32 (typeField e)).wp (contract allowed) W v := by
  obtain ⟨hheld, rfl⟩ := h
  exact wp_load32 (owns_type ⟨hheld, rfl⟩) hW

lemma setTx (h : v.Has e m) (hU : ∀ w, v.Edits e { m with tx := word } w → U () w) :
    (store32 (txField e) word).wp (contract allowed) U v := by
  refine wp_store32 h.owns_tx (hU _ (h.edits ?_ ?_))
  · rw [messageAt_setTx, h.message]
  · intro x hx
    exact write32_frame (by simp only [txField, memBlockSize] at hx ⊢; omega)

lemma setRx (h : v.Has e m) (hU : ∀ w, v.Edits e { m with rx := word } w → U () w) :
    (store32 (rxField e) word).wp (contract allowed) U v := by
  refine wp_store32 h.owns_rx (hU _ (h.edits ?_ ?_))
  · rw [messageAt_setRx, h.message]
  · intro x hx
    exact write32_frame (by simp only [rxField, memBlockSize] at hx ⊢; omega)

lemma setType (h : v.Has e m) (hU : ∀ w, v.Edits e { m with type := word } w → U () w) :
    (store32 (typeField e) word).wp (contract allowed) U v := by
  refine wp_store32 h.owns_type (hU _ (h.edits ?_ ?_))
  · rw [messageAt_setType, h.message]
  · intro x hx
    exact write32_frame (by simp only [typeField, memBlockSize] at hx ⊢; omega)

lemma owns_text (h : v.Has e m) (ht : t.length ≤ msgSize) :
    ∀ x, msgField e ≤ x → x < msgField e + t.length → v.Owns x := by
  intro x hx hx'
  obtain ⟨i, rfl⟩ := Nat.exists_eq_add_of_le hx
  exact h.owns_msg (by omega)

lemma strCopy_outside {mem : Memory} {x : Nat} (ht : t.length ≤ msgSize) (hx : x < e ∨ e + memBlockSize ≤ x) :
    strCopy mem t (msgField e) x = mem x := by
  simp only [msgSize] at ht
  simp only [memBlockSize] at hx
  rcases hx with hx | hx
  · exact strCopy_of_lt (by simp only [msgField]; omega)
  · exact strCopy_of_ge (by simp only [msgField]; omega)

/-- `str_copy` of a literal -/
lemma setText (h : v.Has e m) (ht : t.length ≤ msgSize)
    (hU : ∀ w, v.Edits e { m with msg := strCopy m.msg t 0 } w → U () w) :
    (storeText (msgField e) t).wp (contract allowed) U v := by
  refine wp_storeText (h.owns_text ht) (hU _ (h.edits ?_ ?_))
  · rw [messageAt_setText ht, h.message]
  · exact fun x => strCopy_outside ht

/-- `str_copy` of a string that ends in the field -/
lemma copyTo (h : v.Has e m) {src : Memory} (ht : StringAt src 0 t) (hlen : t.length ≤ msgSize) (hn : t.length < n)
    (hU : ∀ w, v.Edits e { m with msg := strCopy m.msg t 0 } w → U () w) :
    (Script.copyTo src (msgField e) n 0).wp (contract allowed) U v := by
  refine wp_copyTo ht (h.owns_text hlen) hn (hU _ (h.edits ?_ ?_))
  · rw [Nat.add_zero, messageAt_setText hlen, h.message]
  · exact fun x => strCopy_outside hlen

lemma copyFrom (h : v.Has e m) {dst : Memory} {D : Memory → View → Prop} (ht : StringAt m.msg 0 t)
    (hlen : t.length < msgSize) (hn : t.length < n) (hD : D (strCopy dst t 0) v) :
    (Script.copyFrom (msgField e) n 0 dst).wp (contract allowed) D v := by
  refine wp_copyFrom (h.stringAt ht (by omega)) ?_ hn hD
  intro x hx hx'
  obtain ⟨i, rfl⟩ := Nat.exists_eq_add_of_le hx
  exact h.owns_msg (by omega)

end View.Has

/-- The message that registers the command `name` -/
def registration (name : List UInt8) : Send :=
  ⟨kcdPid, { IoMessage.blank with type := typeRegisterCmd, msg := strCopy IoMessage.blank.msg name 0 }⟩

lemma Script.wp_register {allowed : Deed → Prop} {v : View} {name : List UInt8} {U : Unit → View → Prop}
    (hname : name.length ≤ msgSize) (hall : allowed (.sent (registration name)))
    (hU : ∀ w, w.deeds = v.deeds ++ [.sent (registration name)] → U () w) :
    (register name).wp (contract allowed) U v := by
  simp only [register, Program.wp_bind]
  refine wp_request ?_
  intro e v₀ h₀
  refine h₀.has.setType ?_
  intro v₁ h₁
  refine h₁.has.setText hname ?_
  intro v₂ h₂
  refine wp_send h₂.has hall ?_
  intro code w hw
  refine hU w ?_
  rw [hw.deeds, h₂.deeds, h₁.deeds, h₀.deeds]
  rfl

end RtxKernel
