import RtxKernel.Process.Kcd
import RtxKernel.Process.ScriptMail
import RtxKernel.Process.ScriptRules

/-!
# The keyboard decoder in the system

The code of `io/kcd.c` with every byte that it reads and writes in an envelope. A turn of it does what `Kcd.turn`
says about messages (`Kcd.wp_code`), so that the decoder answers what has been typed and registered, whatever the
other processes and the interrupts do.
-/

namespace RtxKernel

open Script

namespace Kcd

/-- `register_command`. The record and its text are the decoder's own. -/
def registerMessage (s : Kcd) (msg : Nat) (pid : UInt32) : Script Kcd := do
  let c ← loadMsg msg 0
  if c ≠ 0x25 then
    return s
  else
    let cmd ← copyFrom (msgField msg) addressSpace 0 fun _ => 0
    return { s with cmds := s.cmds ++ [⟨pid, cmd⟩] }

/-- `msg->msg[1] == 'c' && msg->msg[2] == 'l' && msg->msg[3] == 'r'` -/
def testClear (msg : Nat) : Script Bool := do
  let c ← loadMsg msg 1
  if c ≠ 0x63 then return false else
    let l ← loadMsg msg 2
    if l ≠ 0x6c then return false else
      let r ← loadMsg msg 3
      return r = 0x72

/-- The screen is cleared. -/
def sendClear : Script Unit := do
  let msg ← request
  store32 (txField msg) kcdPid
  store32 (rxField msg) crtPid
  storeText (msgField msg) [0x0c]
  let _ ← send crtPid msg

/-- A character is sent on in its own envelope. -/
def sendOn (msg : Nat) (inputChar : UInt8) : Script Unit := do
  store32 (txField msg) kcdPid
  store32 (rxField msg) crtPid
  if inputChar = 0x0d then storeMsg msg 1 0x0a else pure ()
  let _ ← send crtPid msg

/-- The line is sent to the process that has registered the command. -/
def sendCommand (buffer : Memory) : Option RegCmd → Script Unit
  | none => pure ()
  | some current => do
    let command ← request
    store32 (txField command) kcdPid
    store32 (rxField command) current.pid
    copyTo buffer (msgField command) addressSpace 0
    let _ ← send current.pid command

/-- The buffer at a return -/
def enter (s : Kcd) : Script Kcd :=
  if s.kcdBuffer 0 = 0x25 then
    match findCommand s.kcdBuffer addressSpace 1 s.cmds with
    | none => fail
    | some current => do
      sendCommand s.kcdBuffer current
      return { s with kcdBuffer := resetKcdBuffer s.kcdBuffer, kbufSize := 0 }
  else return s

/-- The buffer at another character -/
def push (s : Kcd) (c : UInt8) : Kcd :=
  if kcdBufferSize ≤ s.kbufSize then s
  else if s.kcdBuffer 0 = 0x25 then
    { s with kcdBuffer := Function.update s.kcdBuffer s.kbufSize c, kbufSize := s.kbufSize + 1 }
  else s

/-- `kcd`, with a message that it has received -/
def code (s : Kcd) (msg : Nat) : Script Kcd := do
  let type ← load32 (typeField msg)
  if type = typeRegisterCmd then
    let tx ← load32 (txField msg)
    let s ← registerMessage s msg tx
    let _ ← release msg
    return s
  else
    let clear ← testClear msg
    if clear then
      let _ ← release msg
      sendClear
      return s
    else
      let inputChar ← loadMsg msg 0
      sendOn msg inputChar
      if inputChar = 0x25 then
        let buffer := Function.update (resetKcdBuffer s.kcdBuffer) 0 inputChar
        return { s with kcdBuffer := buffer, kbufSize := 1 }
      else if inputChar = 0x0d then
        s.enter
      else
        return s.push inputChar

/-- The decoder as a process. Its buffer and its list of commands are its own memory. -/
def process (behind : Memory) : Process Kcd where
  pid := kcdPid
  start := return Kcd.start behind
  turn := code

/-! ### The parts of a turn -/

section Parts

variable {allowed : Deed → Prop} {v : View} {e : Nat} {m : IoMessage} {s s' : Kcd} {d : Console} {x : Input}
  {out : List Send} {c : UInt8} {t : List UInt8} {U : Unit → View → Prop} {R : Kcd → View → Prop}

lemma wp_testClear {Q : Bool → View → Prop} (h : v.Has e m)
    (hQ : ∀ b, (b = true ↔ m.msg 1 = 0x63 ∧ m.msg 2 = 0x6c ∧ m.msg 3 = 0x72) → Q b v) :
    (testClear e).wp (contract allowed) Q v := by
  rw [testClear, Program.wp_bind]
  refine h.loadMsg (by decide) ?_
  by_cases hc : m.msg 1 = 0x63
  · rw [if_neg (not_not.mpr hc), Program.wp_bind]
    refine h.loadMsg (by decide) ?_
    by_cases hl : m.msg 2 = 0x6c
    · rw [if_neg (not_not.mpr hl), Program.wp_bind]
      refine h.loadMsg (by decide) ?_
      exact hQ _ (by simp [hc, hl])
    · rw [if_pos hl]
      exact hQ false (by simp [hl])
  · rw [if_pos hc]
    exact hQ false (by simp [hc])

lemma wp_sendClear (hall : allowed (.sent clearScreen))
    (hU : ∀ w, w.deeds = v.deeds ++ [.sent clearScreen] → U () w) : sendClear.wp (contract allowed) U v := by
  simp only [sendClear, Program.wp_bind]
  refine wp_request ?_
  intro e v₀ h₀
  refine h₀.has.setTx ?_
  intro v₁ h₁
  refine h₁.has.setRx ?_
  intro v₂ h₂
  refine h₂.has.setText (by decide) ?_
  intro v₃ h₃
  refine wp_send h₃.has hall ?_
  intro code w hw
  refine hU w ?_
  rw [hw.deeds, h₃.deeds, h₂.deeds, h₁.deeds, h₀.deeds]
  rfl

lemma wp_sendOn (h : v.Has e m) (hall : allowed (.sent (forward m)))
    (hU : ∀ w, w.deeds = v.deeds ++ [.sent (forward m)] → U () w) :
    (sendOn e (m.msg 0)).wp (contract allowed) U v := by
  simp only [sendOn, Program.wp_bind]
  refine h.setTx ?_
  intro v₁ h₁
  refine h₁.has.setRx ?_
  intro v₂ h₂
  rw [forward] at hall hU
  by_cases hr : m.msg 0 = 0x0d
  · rw [if_pos hr] at hall hU ⊢
    refine h₂.has.storeMsg (by decide) ?_
    intro v₃ h₃
    refine wp_send h₃.has hall ?_
    intro code w hw
    exact hU w (by rw [hw.deeds, h₃.deeds, h₂.deeds, h₁.deeds])
  · rw [if_neg hr] at hall hU ⊢
    refine wp_send h₂.has hall ?_
    intro code w hw
    exact hU w (by rw [hw.deeds, h₂.deeds, h₁.deeds])

lemma wp_sendCommand {buffer : Memory} {found : Option RegCmd} (ht : StringAt buffer 0 t) (hlen : t.length ≤ msgSize)
    (hout : commandFor buffer found = some out) (hall : ∀ call ∈ out, allowed (.sent call))
    (hU : ∀ w, w.deeds = v.deeds ++ out.map .sent → U () w) :
    (sendCommand buffer found).wp (contract allowed) U v := by
  have hspace : t.length < addressSpace := Nat.lt_of_le_of_lt hlen (by decide)
  cases found with
  | none =>
    obtain rfl := Option.some.inj hout
    exact hU v (List.append_nil _).symm
  | some current =>
    rw [commandFor, strCopyLoop_eq ht hspace] at hout
    obtain rfl := Option.some.inj hout
    simp only [sendCommand, Program.wp_bind]
    refine wp_request ?_
    intro e v₀ h₀
    refine h₀.has.setTx ?_
    intro v₁ h₁
    refine h₁.has.setRx ?_
    intro v₂ h₂
    refine h₂.has.copyTo ht hlen hspace ?_
    intro v₃ h₃
    refine wp_send h₃.has (hall _ (List.mem_singleton_self _)) ?_
    intro code w hw
    refine hU w ?_
    rw [hw.deeds, h₃.deeds, h₂.deeds, h₁.deeds, h₀.deeds]
    rfl

/-- A registration reads the text in the envelope. -/
lemma wp_registerMessage (h : v.Has e m) (ht : m.msg 0 = 0x25 → StringAt m.msg 0 t)
    (hlen : t.length < msgSize) (hs : s.registerCommand m.msg m.tx = some s') (hR : R s' v) :
    (registerMessage s e m.tx).wp (contract allowed) R v := by
  rw [registerMessage, Program.wp_bind]
  refine h.loadMsg (by decide) ?_
  rw [registerCommand] at hs
  by_cases hc : m.msg 0 = 0x25
  · have hspace : t.length < addressSpace := Nat.lt_trans hlen (by decide)
    rw [if_neg (not_not.mpr hc), strCopyLoop_eq (ht hc) hspace] at hs
    obtain rfl := Option.some.inj hs
    rw [if_neg (not_not.mpr hc), Program.wp_bind]
    exact h.copyFrom (ht hc) hlen hspace hR
  · rw [if_pos hc] at hs
    obtain rfl := Option.some.inj hs
    rw [if_pos hc]
    exact hR

/-- The line at a return -/
lemma wp_enter (h : Tracks s d) (hready : d.Ready (.key 0x0d)) (hb : s.kcdBuffer 0 = 0x25) {found : Option RegCmd}
    (hfound : findCommand s.kcdBuffer addressSpace 1 s.cmds = some found)
    (hout : commandFor s.kcdBuffer found = some out) (hall : ∀ call ∈ out, allowed (.sent call))
    (hR : ∀ w, w.deeds = v.deeds ++ out.map .sent →
      R { s with kcdBuffer := resetKcdBuffer s.kcdBuffer, kbufSize := 0 } w) :
    s.enter.wp (contract allowed) R v := by
  obtain ⟨l, hl⟩ := Option.ne_none_iff_exists'.mp (h.head_iff.mp hb)
  have hfits : Fits l := hready l rfl hl
  rw [enter, if_pos hb, hfound]
  dsimp only
  rw [Program.wp_bind]
  exact wp_sendCommand (h.stringAt hl hfits) (Nat.le_succ_of_le hfits.1) hout hall hR

/-- A message of a registration. -/
lemma wp_code_register (h : v.Has e m) (htype : m.type = typeRegisterCmd) (ht : m.msg 0 = 0x25 → StringAt m.msg 0 t)
    (hlen : t.length < msgSize) (hs : s.turn m = some (s', out))
    (hR : ∀ w, w.deeds = v.deeds ++ out.map .sent → R s' w) : (s.code e).wp (contract allowed) R v := by
  rw [turn, if_pos htype] at hs
  obtain ⟨s₁, hreg, hs⟩ := Option.bind_eq_some_iff.mp hs
  cases Option.some.inj hs
  rw [code, Program.wp_bind]
  refine h.loadType ?_
  rw [if_pos htype, Program.wp_bind]
  refine h.loadTx ?_
  rw [Program.wp_bind]
  refine wp_registerMessage h ht hlen hreg ?_
  rw [Program.wp_bind]
  refine wp_release h.held ?_
  intro code w hw
  exact hR w hw.deeds

/-- A command message for the decoder itself. -/
lemma wp_code_clear (h : v.Has e m) (htype : m.type ≠ typeRegisterCmd)
    (hclr : m.msg 1 = 0x63 ∧ m.msg 2 = 0x6c ∧ m.msg 3 = 0x72) (hs : s.turn m = some (s', out))
    (hall : ∀ call ∈ out, allowed (.sent call)) (hR : ∀ w, w.deeds = v.deeds ++ out.map .sent → R s' w) :
    (s.code e).wp (contract allowed) R v := by
  rw [turn, if_neg htype, if_pos hclr] at hs
  cases Option.some.inj hs
  rw [code, Program.wp_bind]
  refine h.loadType ?_
  rw [if_neg htype, Program.wp_bind]
  refine wp_testClear h ?_
  intro b hb
  rw [if_pos (hb.mpr hclr), Program.wp_bind]
  refine wp_release h.held ?_
  intro code v₁ h₁
  rw [Program.wp_bind]
  refine wp_sendClear (hall _ (List.mem_singleton_self _)) ?_
  intro w hw
  exact hR w (by rw [hw, h₁.deeds, List.append_nil]; rfl)

/-- A message of a character, as far as the screen. -/
lemma wp_code_key (h : v.Has e m) (htype : m.type ≠ typeRegisterCmd) (hz : ∀ i, 0 < i → i < 64 → m.msg i = 0)
    (hall : allowed (.sent (forward m))) (hR : ∀ w, w.deeds = v.deeds ++ [.sent (forward m)] →
      (if m.msg 0 = 0x25 then pure { s with
          kcdBuffer := Function.update (resetKcdBuffer s.kcdBuffer) 0 (m.msg 0)
          kbufSize := 1 }
        else if m.msg 0 = 0x0d then s.enter else pure (s.push (m.msg 0)) : Script Kcd).wp (contract allowed) R w) :
    (s.code e).wp (contract allowed) R v := by
  rw [code, Program.wp_bind]
  refine h.loadType ?_
  rw [if_neg htype, Program.wp_bind]
  refine wp_testClear h ?_
  intro b hb
  rw [if_neg fun hclr => not_clear hz (hb.mp hclr), Program.wp_bind]
  refine h.loadMsg (by decide) ?_
  rw [Program.wp_bind]
  exact wp_sendOn h hall hR

/-- A turn of the code does what the turn over messages does. -/
theorem wp_code (h : v.Has e m) (ht : Tracks s d) (hx : Carries m x) (hready : d.Ready x)
    (hs : s.turn m = some (s', out)) (hall : ∀ call ∈ out, allowed (.sent call))
    (hR : ∀ w, w.deeds = v.deeds ++ out.map .sent → R s' w) : (s.code e).wp (contract allowed) R v := by
  cases hx with
  | register w htype hname hw hsp => exact wp_code_register h htype (fun _ => hname) (Nat.succ_lt_succ hw) hs hR
  | ignored htype hne => exact wp_code_register (t := []) h htype (absurd · hne) (by decide) hs hR
  | clear line htype hline hclr => exact wp_code_clear h htype (clear_chars hline hclr) hs hall hR
  | key htype hz =>
    rw [turn, if_neg htype, if_neg (not_clear hz)] at hs
    by_cases hp : m.msg 0 = 0x25
    · rw [if_pos hp] at hs
      cases Option.some.inj hs
      refine wp_code_key h htype hz (hall _ List.mem_cons_self) ?_
      rw [if_pos hp]
      exact hR
    rw [if_neg hp] at hs
    by_cases hr : m.msg 0 = 0x0d
    · rw [if_pos hr] at hs
      by_cases hb : s.kcdBuffer 0 = 0x25
      · rw [if_neg (not_not.mpr hb)] at hs
        obtain ⟨found, hfound, hs⟩ := Option.bind_eq_some_iff.mp hs
        obtain ⟨calls, hcalls, hs⟩ := Option.bind_eq_some_iff.mp hs
        cases Option.some.inj hs
        refine wp_code_key h htype hz (hall _ List.mem_cons_self) ?_
        intro w hw
        rw [if_neg hp, if_pos hr]
        refine wp_enter ht (hr ▸ hready) hb hfound hcalls (fun call hc => hall call (List.mem_cons_of_mem _ hc)) ?_
        intro w' hw'
        refine hR w' ?_
        rw [hw', hw, List.append_assoc]
        rfl
      · rw [if_pos hb] at hs
        cases Option.some.inj hs
        refine wp_code_key h htype hz (hall _ List.mem_cons_self) ?_
        intro w hw
        rw [if_neg hp, if_pos hr, enter, if_neg hb]
        exact hR w hw
    · have hpush : s' = s.push (m.msg 0) ∧ out = [forward m] := by
        rw [if_neg hr] at hs
        rw [push]
        split_ifs at hs ⊢ with hfull hb
        · cases Option.some.inj hs
          exact ⟨rfl, rfl⟩
        · cases Option.some.inj hs
          exact ⟨rfl, rfl⟩
        · cases Option.some.inj hs
          exact ⟨rfl, rfl⟩
      obtain ⟨rfl, rfl⟩ := hpush
      refine wp_code_key h htype hz (hall _ List.mem_cons_self) ?_
      intro w hw
      rw [if_neg hp, if_neg hr]
      exact hR w hw

end Parts

/-! ### The decoder among other processes -/

/-- Where a message of the decoder goes: a short text to the screen, or a command to a process that has registered
it. -/
structure Goes (P : UInt32 → Prop) (call : Send) : Prop where
  elsewhere : call.processId ≠ crtPid → P call.processId
  screen : call.processId = crtPid → P crtPid ∨ ∃ t, t.length < msgSize ∧ StringAt call.message.msg 0 t

/-- The message `m` may come after the messages `ms`: they are inputs, lines that are entered fit, and a process that
registers a command has the property `P`. -/
def Fits (P : UInt32 → Prop) (ms : List IoMessage) (m : IoMessage) : Prop :=
  ∃ xs, List.Forall₂ Carries (ms ++ [m]) xs ∧ Console.start.AllReady xs ∧
    ∀ name pid, .register name pid ∈ xs → P pid

/-- The decoder has answered the messages `ms`. -/
def Answering (behind : Memory) (ms : List IoMessage) (q : Kcd) (deeds : List Deed) : Prop :=
  ∃ outs, (Kcd.start behind).run ms = some (q, outs) ∧ deeds = outs.flatten.map .sent

section Process

variable {P : UInt32 → Prop} {d : Console} {x : Input} {xs ys : List Input} {s q q' : Kcd} {m : IoMessage}
  {ms : List IoMessage} {out : List Send} {outs : List (List Send)} {behind : Memory} {allowed : Deed → Prop}
  {call : Send}

lemma run_append (hrun : s.run ms = some (q, outs)) (hturn : q.turn m = some (q', out)) :
    s.run (ms ++ [m]) = some (q', outs ++ [out]) := by
  induction ms generalizing s outs with
  | nil =>
    obtain ⟨rfl, rfl⟩ := Prod.mk.inj (Option.some.inj hrun)
    rw [List.nil_append, run, hturn]
    rfl
  | cons m₀ ms ih =>
    obtain ⟨⟨s₁, out₁⟩, hfirst, hrest⟩ := Option.bind_eq_some_iff.mp hrun
    obtain ⟨⟨s₂, outs₂⟩, hrun₂, heq⟩ := Option.bind_eq_some_iff.mp hrest
    obtain ⟨rfl, rfl⟩ := Prod.mk.inj (Option.some.inj heq)
    rw [List.cons_append, run, hfirst, Option.bind_eq_bind, Option.bind_some]
    dsimp only
    rw [ih hrun₂]
    rfl

lemma allReady_append : d.AllReady (xs ++ ys) ↔ d.AllReady xs ∧ (xs.foldl Console.next d).AllReady ys := by
  induction xs generalizing d with
  | nil => simp [Console.AllReady]
  | cons x xs ih => simp [Console.AllReady, ih, and_assoc]

lemma forall₂_concat {α β : Type} {R : α → β → Prop} {l : List α} {a : α} {zs : List β}
    (h : List.Forall₂ R (l ++ [a]) zs) : ∃ ys b, zs = ys ++ [b] ∧ List.Forall₂ R l ys ∧ R a b := by
  have hflip : List.Forall₂ (flip R) zs (l ++ [a]) := h.flip
  have htake := List.forall₂_take_append _ _ _ hflip
  have hdrop := List.forall₂_drop_append _ _ _ hflip
  cases hzs : zs.drop l.length with
  | nil =>
    rw [hzs] at hdrop
    cases hdrop
  | cons b t =>
    rw [hzs] at hdrop
    obtain ⟨hab, ht⟩ := List.forall₂_cons.mp hdrop
    cases ht
    refine ⟨zs.take l.length, b, ?_, htake.flip, hab⟩
    rw [← hzs, List.take_append_drop]

/-- The processes that have registered commands -/
lemma registered (hd : ∀ r ∈ d.commands, P r.2) (hxs : ∀ name pid, .register name pid ∈ xs → P pid) :
    ∀ r ∈ (xs.foldl Console.next d).commands, P r.2 := by
  induction xs generalizing d with
  | nil => exact hd
  | cons x xs ih =>
    refine ih ?_ fun name pid h => hxs name pid (List.mem_cons_of_mem _ h)
    cases x with
    | register name pid =>
      intro r hr
      rcases List.mem_append.mp hr with hr | hr
      · exact hd r hr
      · obtain rfl := List.mem_singleton.mp hr
        exact hxs name pid List.mem_cons_self
    | _ => exact hd

lemma echo_length (c : UInt8) : (echo c).length < msgSize := by
  rw [echo]
  split_ifs <;> simp [msgSize]

/-- Where the answers go -/
lemma goes_of_answers (h : Answers d x out) (hready : d.Ready x) (hd : ∀ r ∈ d.commands, P r.2) :
    ∀ call ∈ out, Goes P call := by
  have hscreen : ∀ {call t}, Sends call crtPid t → t.length < msgSize → Goes P call := by
    intro call t hcall ht
    exact ⟨fun hne => absurd hcall.processId hne, fun _ => .inr ⟨t, ht, hcall.text⟩⟩
  have hgoes : ∀ {call : Send}, P call.processId → Goes P call :=
    fun hP => ⟨fun _ => hP, fun heq => .inl (heq ▸ hP)⟩
  cases x with
  | register name pid =>
    obtain rfl := h
    simp
  | ignored =>
    obtain rfl := h
    simp
  | clear =>
    obtain ⟨call, rfl, hcall⟩ := h
    intro c hc
    obtain rfl := List.mem_singleton.mp hc
    exact hscreen hcall (by decide)
  | key c =>
    obtain ⟨call, commands, rfl, hcall, hnone, hcommands⟩ := h
    intro call' hmem
    rcases List.mem_cons.mp hmem with rfl | hmem
    · exact hscreen hcall (echo_length c)
    by_cases hc : c = 0x0d
    · cases hl : d.line with
      | none =>
        rw [hnone (.inr hl)] at hmem
        cases hmem
      | some line =>
        obtain ⟨hcn, hcs⟩ := hcommands line hc hl (hready line hc hl)
        cases ht : d.target line with
        | none =>
          rw [hcn ht] at hmem
          cases hmem
        | some pid =>
          obtain ⟨call₁, rfl, hsends, -⟩ := hcs pid ht
          obtain rfl := List.mem_singleton.mp hmem
          obtain ⟨r, hr, rfl⟩ := Option.map_eq_some_iff.mp ht
          exact hgoes (hsends.processId ▸ hd r (List.mem_of_find?_eq_some hr))
    · rw [hnone (.inl hc)] at hmem
      cases hmem

/-- The code of the decoder is correct. -/
theorem correct (hkcd : P kcdPid) (hallowed : ∀ call, Goes P call → allowed (.sent call)) :
    (process behind).Correct allowed (Fits P) (Answering behind) where
  start := by
    intro v _ hdeeds
    exact ⟨[], rfl, hdeeds⟩
  turn := by
    rintro ms m q e v ⟨outs, hrun, hdeeds⟩ ⟨zs, hzs, hready, hP⟩ he hm
    obtain ⟨xs, x, rfl, hms, hx⟩ := forall₂_concat hzs
    obtain ⟨-, hnow, -⟩ := allReady_append.mp hready
    have hstart : ∀ r ∈ Console.start.commands, P r.2 := by
      intro r hr
      obtain rfl := List.mem_singleton.mp hr
      exact hkcd
    have hreg := registered hstart fun name pid h => hP name pid (List.mem_append_left [x] h)
    obtain ⟨htracks, -⟩ := Tracks.start.run hms hrun
    obtain ⟨q', out, hturn⟩ := htracks.turn_isSome hx hnow
    obtain ⟨-, hanswers⟩ := htracks.turn hx hturn
    refine wp_code ⟨he, hm⟩ htracks hx hnow hturn ?_ ?_
    · intro call hcall
      exact hallowed call (goes_of_answers hanswers hnow hreg call hcall)
    · intro w hw
      refine ⟨outs ++ [out], run_append hrun hturn, ?_⟩
      rw [hw, hdeeds, List.flatten_append, List.map_append, List.flatten_singleton]

end Process

end Kcd

end RtxKernel
