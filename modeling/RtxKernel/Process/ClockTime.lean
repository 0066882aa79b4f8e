import RtxKernel.Process.Wallclock

/-!
# The time of the wall clock

`%WS` is a parser for `HH:MM:SS`, spread over `error_check` and `convert_to_dec`; it accepts a text or leaves
the clock as it is (`set_command_exact`). The tick branch prints the time of day, and prints it right for all
elapsed times (`time_shown`).
-/

namespace RtxKernel

/-- Two decimal digits -/
def twoDigitText (n : Nat) : List UInt8 := [UInt8.ofNat (n / 10 + 0x30), UInt8.ofNat (n % 10 + 0x30)]

/-- `HH:MM:SS` and the end of the line -/
def timeText (hour min sec : Nat) : List UInt8 :=
  twoDigitText hour ++ [0x3a] ++ twoDigitText min ++ [0x3a] ++ twoDigitText sec ++ [0x0d, 0x0a]

/-- From `msg[3]` on there are a space, three numbers of two digits with a colon between them, and a null; the
numbers are a time of day. -/
structure IsTimeText (msg : Memory) (hour min sec : Nat) : Prop where
  space : msg 3 = 0x20
  digits : ∀ i ∈ [4, 5, 7, 8, 10, 11], isDigit (msg i) = true
  colons : msg 6 = 0x3a ∧ msg 9 = 0x3a
  null : msg 12 = 0
  hours : value [msg 4, msg 5] = hour
  minutes : value [msg 7, msg 8] = min
  seconds : value [msg 10, msg 11] = sec
  inRange : hour < 24 ∧ min < 60 ∧ sec < 60

namespace Wallclock

/-- `out_time` at a tick, without the null -/
def outTime (w : Wallclock) (now : UInt32) : List UInt8 :=
  let curTime := (now - w.baseTime) / 1000
  convertToAscii ((w.hour + (w.min + (w.sec + curTime) / 60) / 60) % 24) ((w.min + (w.sec + curTime) / 60) % 60)
    ((w.sec + curTime) % 60)

/-- The command assigns this time, and the present one to `base_time`, in whatever state the clock is. -/
def Assigns (m : IoMessage) (hour min sec : UInt32) : Prop :=
  ∀ (w : Wallclock) (now : UInt32), (w.turn now m).1 = ⟨true, hour, min, sec, now⟩

/-- The sums of the tick branch are below 2^32, and what `convert_to_ascii` makes of its results are characters of
7 bits. -/
def NoOverflow (w : Wallclock) (now : UInt32) : Prop :=
  let curTime := (now - w.baseTime) / 1000
  w.sec.toNat + curTime.toNat < 4294967296 ∧
    w.min.toNat + ((w.sec + curTime) / 60).toNat < 4294967296 ∧
    w.hour.toNat + ((w.min + (w.sec + curTime) / 60) / 60).toNat < 4294967296 ∧
    ∀ x ∈ [(w.hour + (w.min + (w.sec + curTime) / 60) / 60) % 24, (w.min + (w.sec + curTime) / 60) % 60,
      (w.sec + curTime) % 60], x.toNat / 10 + 0x30 < 128 ∧ x.toNat % 10 + 0x30 < 128

variable {w : Wallclock} {now : UInt32} {m : IoMessage} {msg : Memory} {hour min sec : Nat} {c d : UInt8}

lemma display_eq : w.display now =
    ⟨crtPid, { IoMessage.blank with msg := strCopy IoMessage.blank.msg (w.outTime now) 0 }⟩ := rfl

/-- `CHAR` is signed in the comparisons of `error_check`, which makes no difference. -/
lemma isDigit_signed (c : UInt8) : isDigit c = true ↔ ¬ (c.toInt8 < 0x30 ∨ 0x39 < c.toInt8) := by
  obtain ⟨⟨⟨n, hn⟩⟩⟩ := c
  revert n
  decide +kernel

lemma errorCheck_eq_false_iff : errorCheck msg = false ↔ (msg 6 = 0x3a ∧ msg 9 = 0x3a) ∧ msg 3 = 0x20 ∧
    msg 12 = 0 ∧ ∀ i ∈ [4, 5, 7, 8, 10, 11], isDigit (msg i) = true := by
  rw [errorCheck]
  split_ifs with hcolons hspace hnull
  · rw [false_iff]
    rintro ⟨⟨h6, h9⟩, -⟩
    rcases hcolons with h | h
    · exact h h6
    · exact h h9
  · rw [false_iff]
    rintro ⟨-, h3, -⟩
    exact hspace h3
  · rw [false_iff]
    rintro ⟨-, -, h12, -⟩
    exact hnull h12
  · rw [not_or, not_not, not_not] at hcolons
    rw [not_not] at hspace hnull
    simp [hcolons, hspace, hnull, isDigit_iff]

/-! ### Parsing -/

/-- The value of two digits, as `convert_to_dec` computes it -/
lemma twoDigits_eq (i : Nat) : twoDigits msg i = value [msg i, msg (i + 1)] := by
  simp [twoDigits, value, valueFrom]

/-- A text with its numbers out of range has no time in it. -/
lemma convertToDec_cases (w : Wallclock) (msg : Memory) :
    twoDigits msg 4 < 24 ∧ twoDigits msg 7 < 60 ∧ twoDigits msg 10 < 60 ∧
      w.convertToDec msg = some { w with
        hour := UInt32.ofNat (twoDigits msg 4)
        min := UInt32.ofNat (twoDigits msg 7)
        sec := UInt32.ofNat (twoDigits msg 10) } ∨
    ¬ (twoDigits msg 4 < 24 ∧ twoDigits msg 7 < 60 ∧ twoDigits msg 10 < 60) ∧ w.convertToDec msg = none := by
  rw [convertToDec]
  split_ifs with hhour hrest
  · exact .inr ⟨by omega, rfl⟩
  · exact .inr ⟨by omega, rfl⟩
  · exact .inl ⟨by omega, by omega, by omega, rfl⟩

lemma turn_of_isTimeText (h : IsTimeText m.msg hour min sec) (hS : m.msg 2 = 0x53) :
    (w.turn now m).1 = ⟨true, UInt32.ofNat hour, UInt32.ofNat min, UInt32.ofNat sec, now⟩ := by
  have hcheck : errorCheck m.msg = false := errorCheck_eq_false_iff.mpr ⟨h.colons, h.space, h.null, h.digits⟩
  have htype : getMsgType m.msg = 1 := by rw [getMsgType, if_pos hS]
  rw [turn, if_pos htype, hcheck, if_neg Bool.false_ne_true]
  rcases convertToDec_cases w m.msg with ⟨-, -, -, hdec⟩ | ⟨hno, -⟩
  · rw [hdec, twoDigits_eq, twoDigits_eq, twoDigits_eq, h.hours, h.minutes, h.seconds]
    cases hon : w.clockOn with
    | true => simp
    | false => simp [endOfTurn]
  · rw [twoDigits_eq, twoDigits_eq, twoDigits_eq, h.hours, h.minutes, h.seconds] at hno
    exact absurd h.inRange hno

lemma turn_of_not (hS : m.msg 2 = 0x53) (h : ∀ hour min sec, ¬ IsTimeText m.msg hour min sec) :
    (w.turn now m).1 = w := by
  have htype : getMsgType m.msg = 1 := by rw [getMsgType, if_pos hS]
  rw [turn, if_pos htype]
  cases hcheck : errorCheck m.msg with
  | true => rw [if_pos rfl]
  | false =>
    rw [if_neg Bool.false_ne_true]
    rcases convertToDec_cases w m.msg with ⟨hhour, hmin, hsec, -⟩ | ⟨-, hdec⟩
    · obtain ⟨hcolons, hspace, hnull, hdigits⟩ := errorCheck_eq_false_iff.mp hcheck
      refine absurd ⟨hspace, hdigits, hcolons, hnull, ?_, ?_, ?_, hhour, hmin, hsec⟩ (h _ _ _)
      · exact (twoDigits_eq 4).symm
      · exact (twoDigits_eq 7).symm
      · exact (twoDigits_eq 10).symm
    · rw [hdec]

/-! ### Printing -/

/-- What `convert_to_ascii` writes for one of its numbers -/
lemma charsOf_eq (x : UInt32) :
    [(x / 10 + 0x30).toUInt8, (x % 10 + 0x30).toUInt8] = twoDigitText x.toNat := by
  have hdiv : x / 10 + 0x30 = UInt32.ofNat (x.toNat / 10 + 0x30) := by
    apply UInt32.toNat_inj.mp
    simp
  have hmod : x % 10 + 0x30 = UInt32.ofNat (x.toNat % 10 + 0x30) := by
    apply UInt32.toNat_inj.mp
    simp
  rw [hdiv, hmod, twoDigitText]
  simp

lemma convertToAscii_eq (hour min sec : UInt32) :
    convertToAscii hour min sec = timeText hour.toNat min.toNat sec.toNat := by
  rw [timeText, ← charsOf_eq, ← charsOf_eq, ← charsOf_eq]
  rfl

lemma ofNat_digit (hc : isDigit c = true) : digit c < 10 ∧ UInt8.ofNat (digit c + 0x30) = c := by
  rw [isDigit, Bool.and_eq_true, decide_eq_true_iff, decide_eq_true_iff, UInt8.le_iff_toNat_le,
    UInt8.le_iff_toNat_le] at hc
  have hlow : 0x30 ≤ c.toNat := hc.1
  have hhigh : c.toNat ≤ 0x39 := hc.2
  constructor
  · rw [digit]
    omega
  · rw [digit, Nat.sub_add_cancel hlow, UInt8.ofNat_toNat]

/-- Printing two digits is the inverse of reading them. -/
lemma twoDigitText_value (hc : isDigit c = true) (hd : isDigit d = true) : twoDigitText (value [c, d]) = [c, d] := by
  obtain ⟨-, hofc⟩ := ofNat_digit hc
  obtain ⟨hlt, hofd⟩ := ofNat_digit hd
  have hval : value [c, d] = digit c * 10 + digit d := by
    simp [value, valueFrom]
  have hdiv : (digit c * 10 + digit d) / 10 = digit c := by omega
  have hmod : (digit c * 10 + digit d) % 10 = digit d := by omega
  rw [hval, twoDigitText, hdiv, hmod, hofc, hofd]

lemma text_of_isTimeText (h : IsTimeText msg hour min sec) : timeText hour min sec =
    [msg 4, msg 5, msg 6, msg 7, msg 8, msg 9, msg 10, msg 11, 0x0d, 0x0a] := by
  have htwo : ∀ i ∈ [4, 5, 7, 8, 10, 11], ∀ j ∈ [4, 5, 7, 8, 10, 11],
      twoDigitText (value [msg i, msg j]) = [msg i, msg j] := fun i hi j hj =>
    twoDigitText_value (h.digits i hi) (h.digits j hj)
  rw [timeText, ← h.hours, ← h.minutes, ← h.seconds, htwo 4 (by simp) 5 (by simp), htwo 7 (by simp) 8 (by simp),
    htwo 10 (by simp) 11 (by simp), h.colons.1, h.colons.2]
  rfl

lemma zero_notMem_twoDigitText {n : Nat} (hn : n < 100) : (0 : UInt8) ∉ twoDigitText n := by
  have hchar : ∀ d < 10, (0 : UInt8) ≠ UInt8.ofNat (d + 0x30) := by decide
  rw [twoDigitText, List.mem_cons, List.mem_singleton, not_or]
  exact ⟨hchar _ (by omega), hchar _ (by omega)⟩

lemma zero_notMem_timeText (hhour : hour < 100) (hmin : min < 100) (hsec : sec < 100) :
    (0 : UInt8) ∉ timeText hour min sec := by
  simp [timeText, zero_notMem_twoDigitText hhour, zero_notMem_twoDigitText hmin, zero_notMem_twoDigitText hsec]

/-! ### Adding the elapsed time -/

/-- The elapsed seconds of a clock with 32 bits -/
lemma curTime_lt (x : UInt32) : (x / 1000).toNat < 4294968 := by
  have hx := x.toNat_lt
  rw [UInt32.toNat_div]
  change x.toNat < 4294967296 at hx
  change x.toNat / 1000 < 4294968
  omega

lemma toNat_add_of_lt {x y : UInt32} (h : x.toNat + y.toNat < 4294967296) : (x + y).toNat = x.toNat + y.toNat := by
  rw [UInt32.toNat_add]
  exact Nat.mod_eq_of_lt h

section Elapsed

variable {cur : UInt32}

lemma minutes_exact (hcur : cur.toNat < 4294968) (hsec : w.sec < 60) :
    ((w.sec + cur) / 60).toNat = (w.sec.toNat + cur.toNat) / 60 := by
  have hs : w.sec.toNat < 60 := UInt32.lt_iff_toNat_lt.mp hsec
  rw [UInt32.toNat_div, toNat_add_of_lt (by omega)]
  rfl

lemma hours_exact (hcur : cur.toNat < 4294968) (hmin : w.min < 60) (hsec : w.sec < 60) :
    ((w.min + (w.sec + cur) / 60) / 60).toNat = (w.min.toNat + (w.sec.toNat + cur.toNat) / 60) / 60 := by
  have hs : w.sec.toNat < 60 := UInt32.lt_iff_toNat_lt.mp hsec
  have hm : w.min.toNat < 60 := UInt32.lt_iff_toNat_lt.mp hmin
  have hminutes := minutes_exact hcur hsec
  rw [UInt32.toNat_div, toNat_add_of_lt (by omega), hminutes]
  rfl

/-- The three results are the digits of one sum, in the mixed radix of a day. -/
lemma outTime_eq (hhour : w.hour < 24) (hmin : w.min < 60) (hsec : w.sec < 60) {t : Nat}
    (ht : t = (3600 * w.hour.toNat + 60 * w.min.toNat + w.sec.toNat + ((now - w.baseTime) / 1000).toNat) % 86400) :
    w.NoOverflow now ∧ w.outTime now = timeText (t / 3600) (t / 60 % 60) (t % 60) := by
  have hh : w.hour.toNat < 24 := UInt32.lt_iff_toNat_lt.mp hhour
  have hm : w.min.toNat < 60 := UInt32.lt_iff_toNat_lt.mp hmin
  have hs : w.sec.toNat < 60 := UInt32.lt_iff_toNat_lt.mp hsec
  have hcur := curTime_lt (now - w.baseTime)
  rw [NoOverflow, outTime]
  generalize (now - w.baseTime) / 1000 = cur at hcur ht
  have hminutes := minutes_exact hcur hsec
  have hhours := hours_exact hcur hmin hsec
  have hsec' : ((w.sec + cur) % 60).toNat = t % 60 := by
    rw [UInt32.toNat_mod, toNat_add_of_lt (by omega)]
    change (w.sec.toNat + cur.toNat) % 60 = t % 60
    omega
  have hmin' : ((w.min + (w.sec + cur) / 60) % 60).toNat = t / 60 % 60 := by
    rw [UInt32.toNat_mod, toNat_add_of_lt (by omega), hminutes]
    change (w.min.toNat + (w.sec.toNat + cur.toNat) / 60) % 60 = t / 60 % 60
    omega
  have hhour' : ((w.hour + (w.min + (w.sec + cur) / 60) / 60) % 24).toNat = t / 3600 := by
    rw [UInt32.toNat_mod, toNat_add_of_lt (by omega), hhours]
    change (w.hour.toNat + (w.min.toNat + (w.sec.toNat + cur.toNat) / 60) / 60) % 24 = t / 3600
    omega
  refine ⟨⟨by omega, by omega, by omega, ?_⟩, ?_⟩
  · intro x hx
    simp only [List.mem_cons, List.not_mem_nil, or_false] at hx
    rcases hx with rfl | rfl | rfl
    · rw [hhour']
      omega
    · rw [hmin']
      omega
    · rw [hsec']
      omega
  · rw [convertToAscii_eq, hhour', hmin', hsec']

end Elapsed

/-- At the time at which the clock was set it shows the time to which it was set. -/
lemma outTime_self (hhour : w.hour < 24) (hmin : w.min < 60) (hsec : w.sec < 60) :
    w.outTime w.baseTime = timeText w.hour.toNat w.min.toNat w.sec.toNat := by
  have hh : w.hour.toNat < 24 := UInt32.lt_iff_toNat_lt.mp hhour
  have hm : w.min.toNat < 60 := UInt32.lt_iff_toNat_lt.mp hmin
  have hs : w.sec.toNat < 60 := UInt32.lt_iff_toNat_lt.mp hsec
  have hzero : ((w.baseTime - w.baseTime) / 1000).toNat = 0 := by
    rw [UInt32.sub_self]
    rfl
  have htext : w.outTime w.baseTime = _ := (outTime_eq hhour hmin hsec rfl).2
  rw [hzero] at htext
  rw [htext]
  congr 1 <;> omega

/-! ### Setting the clock and reading it -/

/-- A `%WS` whose text is `HH:MM:SS` in range sets the clock, in every state, and the clock shows that text; any
other `%WS` leaves the clock as it is. -/
theorem set_command_exact (hS : m.msg 2 = 0x53) :
    ((∃ hour min sec, Assigns m hour min sec) ↔ ∃ hour min sec, IsTimeText m.msg hour min sec) ∧
      (∀ hour min sec, IsTimeText m.msg hour min sec → ∀ (w : Wallclock) (now : UInt32),
        (w.turn now m).1 = ⟨true, UInt32.ofNat hour, UInt32.ofNat min, UInt32.ofNat sec, now⟩ ∧
        (w.turn now m).1.outTime now = [m.msg 4, m.msg 5, m.msg 6, m.msg 7, m.msg 8, m.msg 9, m.msg 10,
          m.msg 11, 0x0d, 0x0a]) ∧
      ((¬ ∃ hour min sec, IsTimeText m.msg hour min sec) → ∀ (w : Wallclock) (now : UInt32),
        (w.turn now m).1 = w) := by
  have hset : ∀ hour min sec, IsTimeText m.msg hour min sec → ∀ (w : Wallclock) (now : UInt32),
      (w.turn now m).1 = ⟨true, UInt32.ofNat hour, UInt32.ofNat min, UInt32.ofNat sec, now⟩ :=
    fun hour min sec h w now => turn_of_isTimeText h hS
  have hkeep : (¬ ∃ hour min sec, IsTimeText m.msg hour min sec) → ∀ (w : Wallclock) (now : UInt32),
      (w.turn now m).1 = w := by
    intro hno w now
    apply turn_of_not hS
    intro hour min sec h
    exact hno ⟨hour, min, sec, h⟩
  refine ⟨⟨?_, ?_⟩, ?_, hkeep⟩
  · rintro ⟨hour, min, sec, hassigns⟩
    by_contra hno
    -- a clock that is off is turned on
    have hoff := hkeep hno ⟨false, 0, 0, 0, 0⟩ 0
    rw [hassigns] at hoff
    cases hoff
  · rintro ⟨hour, min, sec, h⟩
    exact ⟨UInt32.ofNat hour, UInt32.ofNat min, UInt32.ofNat sec, hset hour min sec h⟩
  · intro hour min sec h w now
    obtain ⟨hhour, hmin, hsec⟩ := h.inRange
    rw [hset hour min sec h w now]
    refine ⟨rfl, ?_⟩
    have hofNat : ∀ {x b : Nat}, x < b → b < UInt32.size → UInt32.ofNat x < UInt32.ofNat b := fun hx hb =>
      (UInt32.ofNat_lt_iff_lt (Nat.lt_trans hx hb) hb).mpr hx
    have hself : outTime ⟨true, UInt32.ofNat hour, UInt32.ofNat min, UInt32.ofNat sec, now⟩ now = _ :=
      outTime_self (hofNat hhour (by decide)) (hofNat hmin (by decide))
        (hofNat hsec (by decide))
    rw [hself, ← text_of_isTimeText h]
    simp only [UInt32.toNat_ofNat']
    rw [Nat.mod_eq_of_lt (by omega), Nat.mod_eq_of_lt (by omega), Nat.mod_eq_of_lt (by omega)]

def setCommand (text : String) : IoMessage :=
  { IoMessage.blank with rx := wallclockPid, msg := strCopy IoMessage.blank.msg (bytes text) 0 }

theorem set_command_exact_late :
    (turn ⟨false, 0, 0, 0, 0⟩ 77 (setCommand "%WS 23:59:58")).1 = ⟨true, 23, 59, 58, 77⟩ ∧
      outTime ⟨true, 23, 59, 58, 77⟩ 77 = bytes "23:59:58\x0d\x0a" := by
  have htext : IsTimeText (setCommand "%WS 23:59:58").msg 23 59 58 := by
    constructor <;> decide
  obtain ⟨hset, htime⟩ := (set_command_exact rfl).2.1 23 59 58 htext ⟨false, 0, 0, 0, 0⟩ 77
  rw [hset] at htime
  exact ⟨hset, htime⟩

/-- While the clock is on, a tick displays the time of day to which it was set plus the seconds that have passed
since then. -/
theorem time_shown {n : Nat} (hn : n < 4294967296) (hhour : w.hour < 24) (hmin : w.min < 60) (hsec : w.sec < 60)
    (hon : w.clockOn = true) (htick : m.type = typeWallclockTick) (hmode : getMsgType m.msg = 0) :
    w.NoOverflow (w.baseTime + UInt32.ofNat n) ∧
      ∃ message, w.turn (w.baseTime + UInt32.ofNat n) m = (w, [⟨crtPid, message⟩], [tick]) ∧
        ∀ t, t = (3600 * w.hour.toNat + 60 * w.min.toNat + w.sec.toNat + n / 1000) % 86400 →
          StringAt message.msg 0 (timeText (t / 3600) (t / 60 % 60) (t % 60)) := by
  have helapsed : ((w.baseTime + UInt32.ofNat n - w.baseTime) / 1000).toNat = n / 1000 := by
    rw [UInt32.add_comm, UInt32.add_sub_cancel, UInt32.toNat_div, UInt32.toNat_ofNat_of_lt' hn]
    rfl
  refine ⟨(outTime_eq hhour hmin hsec rfl).1, (w.display (w.baseTime + UInt32.ofNat n)).message, ?_, ?_⟩
  · rw [turn, hmode, if_neg (by decide), if_neg (by decide), if_pos ⟨htick, hon⟩, endOfTurn, if_pos hon]
    rfl
  · intro t ht
    rw [← helapsed] at ht
    rw [display_eq, (outTime_eq hhour hmin hsec ht).2]
    apply stringAt_strCopy
    · exact zero_notMem_timeText (by omega) (by omega) (by omega)
    · rfl

/-- The display passes midnight, and the counter its end. -/
theorem time_shown_midnight : ∃ message, turn ⟨true, 23, 59, 58, 4294967295⟩ 2999 tick =
    (⟨true, 23, 59, 58, 4294967295⟩, [⟨crtPid, message⟩], [tick]) ∧
      StringAt message.msg 0 (bytes "00:00:01\x0d\x0a") := by
  have hshown := time_shown (w := ⟨true, 23, 59, 58, 4294967295⟩) (m := tick) (n := 3000) (by decide) (by decide)
    (by decide) (by decide) rfl rfl (by decide)
  obtain ⟨message, hturn, htext⟩ := hshown.2
  exact ⟨message, hturn, htext 1 (by decide)⟩

end Wallclock

end RtxKernel
