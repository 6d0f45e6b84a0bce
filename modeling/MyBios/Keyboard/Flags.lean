import MyBios.Lib.History
import MyBios.Keyboard.Footprint

/-!
The modifier flags as a function of the keys pressed so far.

Every scan code sets, flips or clears bits of the two flag bytes, so each bit is a latch
or a toggle over the scan codes processed since `keyboard_init`. The exception is the
insert bit: its make code flips it, and its break code clears it.

* `keystrokeFlags_eq`: the two `switch` statements as masks.
* `flags_run`: the flags after a run are a fold over the scan codes processed.
* `flagsFollow_iff`: the flags are what the keys say exactly if an even number of insert
  make codes came before the last insert break code.
-/

namespace MyBios.Keyboard

open Prog Lts History

/-! ### What a scan code does to the flags -/

/-- Bits that are set, then flipped, then cleared. -/
structure Masks where
  set : U8
  flip : U8
  clear : U8

def Masks.apply (m : Masks) (flags : U8) : U8 := ((flags ||| m.set) ^^^ m.flip) &&& ~~~m.clear

/-- The bit of `keyboard_flags_xt` that is set while a key is down. -/
def xtHeld (code : U8) : U8 :=
  if code = kb1ScLeftShift then kbStateLeftShift
  else if code = kb1ScRightShift then kbStateRightShift
  else if code = kb1ScLeftCtrl then kbStateCtrl
  else if code = kb1ScLeftAlt then kbStateAlt
  else 0

/-- The bit of `keyboard_flags_xt` that a key flips. -/
def xtToggled (code : U8) : U8 :=
  if code = kb1ScScrolllock then kbStateScrollLock
  else if code = kb1ScNumlock then kbStateNumLock
  else if code = kb1ScCapslock then kbStateCapsLock
  else if code = kb1ScInsert then kbStateInsert
  else 0

/-- The bit of `keyboard_flags_at` that is set while a key is down. -/
def atHeld (code : U8) : U8 :=
  if code = kb1ScLeftCtrl then kbStateLeftCtrl
  else if code = kb1ScLeftAlt then kbStateLeftAlt
  else if code = kb1ScScrolllock then kbStateScrollLockPressed
  else if code = kb1ScNumlock then kbStateNumLockPressed
  else if code = kb1ScCapslock then kbStateCapsLockPressed
  else 0

def xtMasks (b : U8) : Masks :=
  if isMake b then ⟨xtHeld b, xtToggled b, 0⟩
  else ⟨0, 0, xtHeld (b &&& 0x7F) ||| if b &&& 0x7F = kb1ScInsert then kbStateInsert else 0⟩

def atMasks (b : U8) : Masks :=
  if isMake b then ⟨atHeld b, 0, 0⟩ else ⟨0, 0, atHeld (b &&& 0x7F)⟩

/-- The keys of the two `switch` statements. -/
def flagKeys : List U8 :=
  [kb1ScLeftShift, kb1ScRightShift, kb1ScLeftCtrl, kb1ScLeftAlt, kb1ScScrolllock, kb1ScNumlock,
    kb1ScCapslock, kb1ScInsert]

/-- The flag keys one by one, and the rest. -/
theorem flagKey_cases {P : U8 → Prop} (keys : ∀ code ∈ flagKeys, P code)
    (others : ∀ code ∉ flagKeys, P code) (code : U8) : P code := by
  by_cases h : code ∈ flagKeys
  · exact keys code h
  · exact others code h

theorem makeFlags_eq {f : KbFlags} (code : U8) :
    makeFlags code f = ⟨(f.xt ||| xtHeld code) ^^^ xtToggled code, f.at_ ||| atHeld code⟩ := by
  revert code
  apply flagKey_cases
  · simp [flagKeys, makeFlags, xtHeld, xtToggled, atHeld, kb1ScLeftShift, kb1ScRightShift,
      kb1ScLeftCtrl, kb1ScLeftAlt, kb1ScScrolllock, kb1ScNumlock, kb1ScCapslock, kb1ScInsert]
  · intro code h
    simp only [flagKeys, List.mem_cons, List.not_mem_nil, or_false, not_or] at h
    obtain ⟨h₁, h₂, h₃, h₄, h₅, h₆, h₇, h₈⟩ := h
    simp [makeFlags, xtHeld, xtToggled, atHeld, h₁, h₂, h₃, h₄, h₅, h₆, h₇, h₈]

theorem and_ones (x : U8) : x &&& 255#8 = x := BitVec.and_allOnes

theorem breakFlags_eq {f : KbFlags} (code : U8) :
    breakFlags code f =
      ⟨f.xt &&& ~~~(xtHeld code ||| if code = kb1ScInsert then kbStateInsert else 0),
        f.at_ &&& ~~~atHeld code⟩ := by
  revert code
  apply flagKey_cases
  · simp [and_ones, flagKeys, breakFlags, xtHeld, atHeld, kb1ScLeftShift, kb1ScRightShift,
      kb1ScLeftCtrl, kb1ScLeftAlt, kb1ScScrolllock, kb1ScNumlock, kb1ScCapslock, kb1ScInsert]
  · intro code h
    simp only [flagKeys, List.mem_cons, List.not_mem_nil, or_false, not_or] at h
    obtain ⟨h₁, h₂, h₃, h₄, h₅, h₆, h₇, h₈⟩ := h
    simp [and_ones, breakFlags, xtHeld, atHeld, h₁, h₂, h₃, h₄, h₅, h₆, h₇, h₈]

/-- One scan code, as masks. -/
theorem keystrokeFlags_eq {b : U8} {f : KbFlags} :
    keystrokeFlags b f = ⟨(xtMasks b).apply f.xt, (atMasks b).apply f.at_⟩ := by
  unfold keystrokeFlags xtMasks atMasks Masks.apply
  by_cases hmake : isMake b
  · simp only [if_pos hmake, makeFlags_eq]
    simp [and_ones]
  · simp only [if_neg hmake, breakFlags_eq]
    simp

/-! ### Bits -/

/-- The key goes down. -/
def pressed (key b : U8) : Bool := b = key

/-- The key goes up. -/
def released (key b : U8) : Bool := b = key ||| 0x80

/-- The last make or break of the key was a make. -/
def held (key : U8) (bytes : List U8) : Bool := latch (pressed key) (released key) bytes

/-- The make codes of the key are odd in number. -/
def toggled (key : U8) (bytes : List U8) : Bool := toggle (pressed key) bytes

/-- A flag byte after the scan codes `bytes`. -/
def flagByte (masks : U8 → Masks) (bytes : List U8) : U8 :=
  bytes.foldl (fun flags b => (masks b).apply flags) 0

theorem bit_apply {m : Masks} {x : U8} {i : Nat} (hi : i < 8) :
    (m.apply x).getLsbD i =
      (((x.getLsbD i || m.set.getLsbD i) ^^ m.flip.getLsbD i) && !m.clear.getLsbD i) := by
  simp [Masks.apply, hi]

theorem make_ne_break {key : U8} (h : isMake key) : key ≠ key ||| 0x80 := by
  revert key
  decide

section Bits

variable {masks : U8 → Masks} {i : Nat} {key b : U8} {off : U8 → Bool} {bytes : List U8}

/-- Bit `i` is set by the make code of the key and cleared by its break code. -/
structure HeldBit (masks : U8 → Masks) (i : Nat) (key : U8) : Prop where
  lt : i < 8
  make : isMake key = true
  set : ∀ b, (masks b).set.getLsbD i = pressed key b
  flip : ∀ b, (masks b).flip.getLsbD i = false
  clear : ∀ b, (masks b).clear.getLsbD i = released key b

/-- Bit `i` is flipped by the make code of the key and cleared by the codes in `off`. -/
structure FlippedBit (masks : U8 → Masks) (i : Nat) (key : U8) (off : U8 → Bool) : Prop where
  lt : i < 8
  set : ∀ b, (masks b).set.getLsbD i = false
  flip : ∀ b, (masks b).flip.getLsbD i = pressed key b
  clear : ∀ b, (masks b).clear.getLsbD i = off b

instance : Decidable (HeldBit masks i key) :=
  decidable_of_iff (i < 8 ∧ isMake key = true ∧ ∀ b, (masks b).set.getLsbD i = pressed key b ∧
      (masks b).flip.getLsbD i = false ∧ (masks b).clear.getLsbD i = released key b)
    ⟨fun ⟨lt, make, bits⟩ => ⟨lt, make, fun b => (bits b).1, fun b => (bits b).2.1,
        fun b => (bits b).2.2⟩,
      fun h => ⟨h.lt, h.make, fun b => ⟨h.set b, h.flip b, h.clear b⟩⟩⟩

instance : Decidable (FlippedBit masks i key off) :=
  decidable_of_iff (i < 8 ∧ ∀ b, (masks b).set.getLsbD i = false ∧
      (masks b).flip.getLsbD i = pressed key b ∧ (masks b).clear.getLsbD i = off b)
    ⟨fun ⟨lt, bits⟩ => ⟨lt, fun b => (bits b).1, fun b => (bits b).2.1, fun b => (bits b).2.2⟩,
      fun h => ⟨h.lt, fun b => ⟨h.set b, h.flip b, h.clear b⟩⟩⟩

theorem HeldBit.held (h : HeldBit masks i key) :
    (flagByte masks bytes).getLsbD i = held key bytes := by
  have hup : ∀ b, pressed key b = true → released key b = false := by
    intro b hb
    rw [of_decide_eq_true hb]
    exact decide_eq_false (make_ne_break h.make)
  apply foldl_latch (fun flags : U8 => flags.getLsbD i)
  · exact BitVec.getLsbD_zero
  · intro flags b
    rw [bit_apply h.lt, h.set, h.flip, h.clear]
    cases hb : pressed key b with
    | true => simp [hup b hb]
    | false => cases released key b <;> simp

theorem FlippedBit.toggle (h : FlippedBit masks i key off) :
    (flagByte masks bytes).getLsbD i = toggle (pressed key) (since off bytes) := by
  apply foldl_clearedToggle (fun flags : U8 => flags.getLsbD i)
  · exact BitVec.getLsbD_zero
  · intro flags b
    rw [bit_apply h.lt, h.set, h.flip, h.clear, Bool.or_false]
    cases off b with
    | true => rw [Bool.not_true, Bool.and_false, if_pos rfl]
    | false => rw [Bool.not_false, Bool.and_true, if_neg (by decide)]

end Bits

/-! ### The flags -/

/-- A flag of the source is set. -/
def has (flags mask : U8) : Bool := flags &&& mask ≠ 0

/-- What the scan codes `bytes` say about the flags. -/
structure FlagsFollow (bytes : List U8) (f : KbFlags) : Prop where
  leftShift : has f.xt kbStateLeftShift = held kb1ScLeftShift bytes
  rightShift : has f.xt kbStateRightShift = held kb1ScRightShift bytes
  ctrl : has f.xt kbStateCtrl = held kb1ScLeftCtrl bytes
  alt : has f.xt kbStateAlt = held kb1ScLeftAlt bytes
  leftCtrl : has f.at_ kbStateLeftCtrl = held kb1ScLeftCtrl bytes
  leftAlt : has f.at_ kbStateLeftAlt = held kb1ScLeftAlt bytes
  scrollPressed : has f.at_ kbStateScrollLockPressed = held kb1ScScrolllock bytes
  numPressed : has f.at_ kbStateNumLockPressed = held kb1ScNumlock bytes
  capsPressed : has f.at_ kbStateCapsLockPressed = held kb1ScCapslock bytes
  scrollLock : has f.xt kbStateScrollLock = toggled kb1ScScrolllock bytes
  numLock : has f.xt kbStateNumLock = toggled kb1ScNumlock bytes
  capsLock : has f.xt kbStateCapsLock = toggled kb1ScCapslock bytes
  insert : has f.xt kbStateInsert = toggled kb1ScInsert bytes

theorem has_bit (flags : U8) :
    has flags 0x01 = flags.getLsbD 0 ∧ has flags 0x02 = flags.getLsbD 1 ∧
      has flags 0x04 = flags.getLsbD 2 ∧ has flags 0x08 = flags.getLsbD 3 ∧
      has flags 0x10 = flags.getLsbD 4 ∧ has flags 0x20 = flags.getLsbD 5 ∧
      has flags 0x40 = flags.getLsbD 6 ∧ has flags 0x80 = flags.getLsbD 7 := by
  revert flags
  decide

/-! The bits, one by one. -/

theorem leftShift_bit : HeldBit xtMasks 1 kb1ScLeftShift := by decide

theorem rightShift_bit : HeldBit xtMasks 0 kb1ScRightShift := by decide

theorem ctrl_bit : HeldBit xtMasks 2 kb1ScLeftCtrl := by decide

theorem alt_bit : HeldBit xtMasks 3 kb1ScLeftAlt := by decide

theorem leftCtrl_bit : HeldBit atMasks 0 kb1ScLeftCtrl := by decide

theorem leftAlt_bit : HeldBit atMasks 1 kb1ScLeftAlt := by decide

theorem scrollPressed_bit : HeldBit atMasks 4 kb1ScScrolllock := by decide

theorem numPressed_bit : HeldBit atMasks 5 kb1ScNumlock := by decide

theorem capsPressed_bit : HeldBit atMasks 6 kb1ScCapslock := by decide

theorem scrollLock_bit : FlippedBit xtMasks 4 kb1ScScrolllock fun _ => false := by
  decide

theorem numLock_bit : FlippedBit xtMasks 5 kb1ScNumlock fun _ => false := by
  decide

theorem capsLock_bit : FlippedBit xtMasks 6 kb1ScCapslock fun _ => false := by
  decide

theorem insert_bit : FlippedBit xtMasks 7 kb1ScInsert (released kb1ScInsert) := by
  decide

/-- A bit that nothing clears. -/
theorem FlippedBit.toggled {masks : U8 → Masks} {i : Nat} {key : U8} {bytes : List U8}
    (h : FlippedBit masks i key fun _ => false) :
    (flagByte masks bytes).getLsbD i = toggled key bytes := by
  rw [h.toggle, since_never, Keyboard.toggled]

/-! ### Runs -/

/-- The two flag bytes in memory. -/
def flagsOf (m : ByteMem) : KbFlags := ⟨Bda.flagsXt m, Bda.flagsAt m⟩

/-- The flags after the scan codes `bytes`. -/
def flagsAfter (bytes : List U8) : KbFlags :=
  bytes.foldl (fun f b => keystrokeFlags b f) ⟨0, 0⟩

theorem flagsAfter_snoc {bytes : List U8} {b : U8} :
    flagsAfter (bytes ++ [b]) = keystrokeFlags b (flagsAfter bytes) := by
  rw [flagsAfter, List.foldl_append]
  rfl

theorem flagByte_snoc {masks : U8 → Masks} {bytes : List U8} {b : U8} :
    flagByte masks (bytes ++ [b]) = (masks b).apply (flagByte masks bytes) := by
  rw [flagByte, List.foldl_append]
  rfl

theorem flagsAfter_eq {bytes : List U8} :
    flagsAfter bytes = ⟨flagByte xtMasks bytes, flagByte atMasks bytes⟩ := by
  induction bytes using List.reverseRecOn with
  | nil => rfl
  | append_singleton bytes b ih =>
      rw [flagsAfter_snoc, ih, flagByte_snoc, flagByte_snoc]
      exact keystrokeFlags_eq

/-- The scan codes that the steps processed. -/
def processed {ε : Type} : List (Label ε) → List U8
  | [] => []
  | .irq b :: ls | .poll b :: ls => b :: processed ls
  | _ :: ls => processed ls

theorem processed_append {ε : Type} (ls ks : List (Label ε)) :
    processed (ls ++ ks) = processed ls ++ processed ks := by
  induction ls with
  | nil => rfl
  | cons l ls ih =>
      cases l with
      | irq b | poll b => simp [processed, ih]
      | _ => exact ih

variable {m : ByteMem} {b : U8}

theorem flagsOf_updateFlags : flagsOf (updateFlags b m) = keystrokeFlags b (flagsOf m) := by
  rfl

/-- The flags lie in front of the array. -/
theorem flagsOf_congr {m' : ByteMem} (h : ∀ a < BdaField.keyboardBuffer.addr, m' a = m a) :
    flagsOf m' = flagsOf m := by
  rw [flagsOf, flagsOf, Bda.flagsXt, Bda.flagsAt, h _ (by decide), h _ (by decide),
    Bda.flagsXt, Bda.flagsAt]

/-- No store through the array reaches the flags. -/
theorem flagsOf_enqueue : flagsOf (enqueue b m) = flagsOf m := by
  refine flagsOf_congr fun a ha => ?_
  rw [Bda.addr_buffer] at ha
  rw [enqueue, Bda.setHead, ByteMem.write16_other (by rw [Bda.addr_head]; omega),
    Bda.storeKeyboardBuffer, ByteMem.write8_other (by rw [Bda.addr_buffer]; omega)]

theorem flagsOf_advanceTail : flagsOf (advanceTail m) = flagsOf m := by
  refine flagsOf_congr fun a ha => ?_
  rw [Bda.addr_buffer] at ha
  rw [advanceTail, Bda.setTail, ByteMem.write16_other (by rw [Bda.addr_tail]; omega)]

theorem flagsOf_keystrokeMem : flagsOf (keystrokeMem b m) = keystrokeFlags b (flagsOf m) := by
  unfold keystrokeMem
  split
  · rw [flagsOf_enqueue, flagsOf_updateFlags]
  · exact flagsOf_updateFlags

theorem AfterInit.flags (h : AfterInit m) : flagsOf m = ⟨0, 0⟩ := by
  obtain ⟨before, rfl⟩ := h
  rfl

variable {δ ε : Type} [Bus δ] {env : δ → ε → δ → Prop} {m₀ : Machine δ} {ls : List (Label ε)}
  {s : System δ}

/-- The flags after a run are those after the scan codes processed. -/
theorem flags_run (init : AfterInit m₀.mem) (run : Run (Step env) ⟨m₀, .idle⟩ ls s) :
    flagsOf s.machine.mem = flagsAfter (processed ls) := by
  apply run.invariant (I := fun ls s => flagsOf s.machine.mem = flagsAfter (processed ls))
  · exact init.flags
  · intro ls s l t ih hstep
    rw [step_mem hstep, processed_append]
    cases l with
    | irq b | poll b => exact flagsOf_keystrokeMem.trans (by rw [ih]; exact flagsAfter_snoc.symm)
    | pop c => exact flagsOf_advanceTail.trans (by rw [ih]; exact (List.append_nil _).symm ▸ rfl)
    | _ => exact ih.trans ((List.append_nil (processed ls)).symm ▸ rfl)

/-- The insert make codes up to the last insert break code. -/
def insertsBeforeBreak (bytes : List U8) : Nat :=
  (upTo (released kb1ScInsert) bytes).countP (pressed kb1ScInsert)

/-- The insert bit is the parity of the insert make codes after an even number of them. -/
theorem insert_iff {bytes : List U8} :
    has (flagByte xtMasks bytes) kbStateInsert = toggled kb1ScInsert bytes ↔
      insertsBeforeBreak bytes % 2 = 0 := by
  obtain ⟨-, -, -, -, -, -, -, h7⟩ := has_bit (flagByte xtMasks bytes)
  have hbit : has (flagByte xtMasks bytes) kbStateInsert =
      toggle (pressed kb1ScInsert) (since (released kb1ScInsert) bytes) :=
    h7.trans insert_bit.toggle
  rw [hbit, toggled, clearedToggle_eq_toggle_iff, History.toggle, decide_eq_false_iff_not,
    insertsBeforeBreak]
  omega

/-- All other flags are what the keys say. -/
theorem otherFlags_follow {bytes : List U8}
    (insert : has (flagByte xtMasks bytes) kbStateInsert = toggled kb1ScInsert bytes) :
    FlagsFollow bytes ⟨flagByte xtMasks bytes, flagByte atMasks bytes⟩ := by
  obtain ⟨x0, x1, x2, x3, x4, x5, x6, -⟩ := has_bit (flagByte xtMasks bytes)
  obtain ⟨a0, a1, -, -, a4, a5, a6, -⟩ := has_bit (flagByte atMasks bytes)
  constructor
  · exact x1.trans leftShift_bit.held
  · exact x0.trans rightShift_bit.held
  · exact x2.trans ctrl_bit.held
  · exact x3.trans alt_bit.held
  · exact a0.trans leftCtrl_bit.held
  · exact a1.trans leftAlt_bit.held
  · exact a4.trans scrollPressed_bit.held
  · exact a5.trans numPressed_bit.held
  · exact a6.trans capsPressed_bit.held
  · exact x4.trans scrollLock_bit.toggled
  · exact x5.trans numLock_bit.toggled
  · exact x6.trans capsLock_bit.toggled
  · exact insert

/-- In every state that a run reaches, the flags are what the keys say exactly if the
insert key was pressed an even number of times before it was last released. -/
theorem flagsFollow_iff (init : AfterInit m₀.mem) (run : Run (Step env) ⟨m₀, .idle⟩ ls s) :
    FlagsFollow (processed ls) (flagsOf s.machine.mem) ↔
      insertsBeforeBreak (processed ls) % 2 = 0 := by
  rw [flags_run init run, flagsAfter_eq, ← insert_iff]
  constructor
  · exact FlagsFollow.insert
  · exact otherFlags_follow

/-! ### Insert, pressed and released -/

/-- The make code and the break code of the insert key, one after the other. -/
theorem insert_run : ∃ q, Run (Step Controller.arrive)
    ⟨⟨Controller.holding [0x52, 0xD2], clearQueue .zeros⟩, .idle⟩ [.irq 0x52, .irq 0xD2]
    ⟨⟨q, keystrokeMem 0xD2 (keystrokeMem 0x52 (clearQueue .zeros))⟩, .idle⟩ := by
  have make : Step Controller.arrive
      ⟨⟨Controller.holding [0x52, 0xD2], clearQueue .zeros⟩, .idle⟩ (.irq 0x52)
      ⟨⟨takeByte (Controller.holding [0x52, 0xD2]), keystrokeMem 0x52 (clearQueue .zeros)⟩,
        .idle⟩ :=
    irq_ready rfl rfl
  exact ⟨_, (Run.nil.snoc make).snoc (irq_ready (out_takeByte rfl) rfl)⟩

/-- Two make codes of the insert key before the break code. -/
theorem flagsFollow_iff_typed :
    FlagsFollow typed (flagsOf (advanceTail typedMem)) := by
  obtain ⟨q, -, run⟩ := typed_run []
  have plain := run.mono fun _ _ _ h => h.2
  exact (flagsFollow_iff ⟨_, rfl⟩ plain).mpr (by decide)

/-- When the key goes up again the bit is cleared, after one make code. -/
theorem flagsFollow_fails :
    ¬ ∀ (m₀ : Machine Controller) (ls : List (Label U8)) (s : System Controller),
      AfterInit m₀.mem → Run (Step Controller.arrive) ⟨m₀, .idle⟩ ls s →
        FlagsFollow (processed ls) (flagsOf s.machine.mem) := by
  intro h
  obtain ⟨q, run⟩ := insert_run
  have follows := h ⟨_, clearQueue .zeros⟩ _ _ ⟨_, rfl⟩ run
  have hinsert : has (flagsOf (keystrokeMem 0xD2 (keystrokeMem 0x52 (clearQueue .zeros)))).xt
      kbStateInsert = toggled kb1ScInsert [0x52, 0xD2] := follows.insert
  exact absurd hinsert (by decide)

end MyBios.Keyboard
