import MyBios.Keyboard.Flags
import MyBios.Keyboard.Map

/-!
Characters against the keys pressed so far.

`keyboard_map` takes the second table if the exclusive or of the shift flags and the caps
lock flag is not 0. The flags sit in different bits, so that is the case whenever one of
them is set, and both together do not cancel out. Keys that are no letters go the same
way, and the guard admits codes that the tables do not have.

* `keyboardMap_entry`: the table that is read, for the codes inside the tables.
* `mapsKey_iff`: the character is right exactly for a code inside the tables, if shift and
  caps lock do not meet on a letter and caps lock alone does not meet a key with two
  characters.
-/

namespace MyBios.Keyboard

open Prog Lts History

/-- A shift key is down. -/
def shiftHeld (bytes : List U8) : Bool := held kb1ScLeftShift bytes || held kb1ScRightShift bytes

/-- Caps lock is on. -/
def capsOn (bytes : List U8) : Bool := toggled kb1ScCapslock bytes

/-- `KB1_SC_Q` to `KB1_SC_P`, `KB1_SC_A` to `KB1_SC_L` and `KB1_SC_Z` to `KB1_SC_M`. -/
def LetterKey (code : U8) : Prop :=
  (0x10 ≤ code ∧ code ≤ 0x19) ∨ (0x1E ≤ code ∧ code ≤ 0x26) ∨ (0x2C ≤ code ∧ code ≤ 0x32)

instance (code : U8) : Decidable (LetterKey code) := inferInstanceAs (Decidable (_ ∨ _ ∨ _))

/-- `'A'` to `'Z'`. -/
def UpperCase (char : U8) : Prop := 0x41 ≤ char ∧ char ≤ 0x5A

instance (char : U8) : Decidable (UpperCase char) := inferInstanceAs (Decidable (_ ∧ _))

/-- The entry of a table, 0 if it has none. -/
def entry (table : List U8) (code : U8) : U8 := table.getD code.toNat 0

/-- The character of `code` is the one that the scan codes `bytes` ask for. -/
structure MapsKey (beyond : U8 → U8) (bytes : List U8) (xt code : U8) : Prop where
  letter : LetterKey code →
    (UpperCase (keyboardMap beyond xt code) ↔ (shiftHeld bytes ^^ capsOn bytes) = true)
  other : ¬ LetterKey code → keyboardMap beyond xt code =
    entry (if shiftHeld bytes then kbScancodesSet1ShiftMap else kbScancodesSet1NoshiftMap) code
  inside : code.toNat < kbScancodesSet1ShiftMap.length ∧
    code.toNat < kbScancodesSet1NoshiftMap.length

/-- The condition of `mapsKey_iff`: the tables have the code, a letter is not typed with
both shift and caps lock, and caps lock alone is not on for a key with two characters. -/
structure Mappable (bytes : List U8) (code : U8) : Prop where
  inside : code.toNat < 0x5A
  letter : LetterKey code → ¬ (shiftHeld bytes ∧ capsOn bytes)
  other : ¬ LetterKey code → capsOn bytes → shiftHeld bytes ∨
    entry kbScancodesSet1NoshiftMap code = entry kbScancodesSet1ShiftMap code

/-! ### The table that is read -/

theorem length_maps :
    kbScancodesSet1ShiftMap.length = 0x5A ∧ kbScancodesSet1NoshiftMap.length = 0x5A :=
  ⟨rfl, rfl⟩

/-- The exclusive or of flags in different bits. -/
theorem shifted_iff {xt : U8} :
    (xt &&& (kbStateLeftShift ||| kbStateRightShift)) ^^^ (xt &&& kbStateCapsLock) ≠ 0 ↔
      (has xt kbStateLeftShift || has xt kbStateRightShift || has xt kbStateCapsLock) = true := by
  revert xt
  decide

theorem letters_cased {code : U8} (h : LetterKey code) :
    UpperCase (entry kbScancodesSet1ShiftMap code) ∧
      ¬ UpperCase (entry kbScancodesSet1NoshiftMap code) := by
  revert code
  decide

variable {δ ε : Type} [Bus δ] {env : δ → ε → δ → Prop} {m₀ : Machine δ} {ls : List (Label ε)}
  {s : System δ} {code : U8}

/-- The flags that `keyboard_map` tests, from the keys pressed. -/
theorem caseFlags_run (init : AfterInit m₀.mem) (run : Run (Step env) ⟨m₀, .idle⟩ ls s) :
    (has (Bda.flagsXt s.machine.mem) kbStateLeftShift ||
      has (Bda.flagsXt s.machine.mem) kbStateRightShift ||
      has (Bda.flagsXt s.machine.mem) kbStateCapsLock) =
      (shiftHeld (processed ls) || capsOn (processed ls)) := by
  have hxt : Bda.flagsXt s.machine.mem = flagByte xtMasks (processed ls) := by
    have hflags := flags_run init run
    rw [flagsAfter_eq] at hflags
    exact congrArg KbFlags.xt hflags
  obtain ⟨h0, h1, -, -, -, -, h6, -⟩ := has_bit (flagByte xtMasks (processed ls))
  rw [hxt, shiftHeld, capsOn, ← leftShift_bit.held, ← rightShift_bit.held, ← capsLock_bit.toggled,
    ← h0, ← h1, ← h6]
  rfl

/-- One of shift and caps lock is enough for the second table. -/
theorem keyboardMap_entry (beyond : U8 → U8) (init : AfterInit m₀.mem)
    (run : Run (Step env) ⟨m₀, .idle⟩ ls s) (hmake : isMake code)
    (hinside : code.toNat < 0x5A) :
    keyboardMap beyond (Bda.flagsXt s.machine.mem) code =
      entry (if shiftHeld (processed ls) || capsOn (processed ls) then kbScancodesSet1ShiftMap
        else kbScancodesSet1NoshiftMap) code := by
  have hgetD : ∀ table : List U8, table.length = 0x5A →
      table.getD code.toNat (beyond code) = entry table code := by
    intro table hlength
    rw [entry, List.getD_eq_getElem?_getD, List.getD_eq_getElem?_getD,
      List.getElem?_eq_getElem (by omega)]
    rfl
  have hflags := caseFlags_run init run
  rw [keyboardMap, if_pos hmake, hgetD _ length_maps.1, hgetD _ length_maps.2]
  cases hshifted : shiftHeld (processed ls) || capsOn (processed ls) with
  | true =>
      rw [hshifted] at hflags
      rw [if_pos (shifted_iff.mpr hflags), if_pos rfl]
  | false =>
      rw [hshifted] at hflags
      rw [if_neg (by rw [shifted_iff, hflags]; decide), if_neg (by decide)]

/-- In every state that a run reaches, the character of a make code is right exactly if the
code is `Mappable`. -/
theorem mapsKey_iff (beyond : U8 → U8) (init : AfterInit m₀.mem)
    (run : Run (Step env) ⟨m₀, .idle⟩ ls s) (hmake : isMake code) :
    MapsKey beyond (processed ls) (Bda.flagsXt s.machine.mem) code ↔
      Mappable (processed ls) code := by
  constructor
  · rintro ⟨letter, other, inside⟩
    rw [length_maps.1] at inside
    have hmap := keyboardMap_entry beyond init run hmake inside.1
    rw [hmap] at letter other
    refine ⟨inside.1, ?_, ?_⟩
    · rintro hletter ⟨hshift, hcaps⟩
      have hupper := letter hletter
      simp only [hshift, hcaps, Bool.or_true, if_true, letters_cased hletter] at hupper
      exact absurd (hupper.mp trivial) (by decide)
    · intro hletter hcaps
      cases hshift : shiftHeld (processed ls) with
      | true => exact .inl rfl
      | false =>
          have hentry := other hletter
          simp only [hshift, hcaps, Bool.or_true, if_true] at hentry
          exact .inr hentry.symm
  · rintro ⟨inside, letter, other⟩
    have hmap := keyboardMap_entry beyond init run hmake inside
    refine ⟨?_, ?_, ?_⟩
    · intro hletter
      have hboth := letter hletter
      obtain ⟨hupper, hlower⟩ := letters_cased hletter
      rw [hmap]
      cases hshift : shiftHeld (processed ls) <;> cases hcaps : capsOn (processed ls)
      · exact iff_of_false hlower (by decide)
      · exact iff_of_true hupper (by decide)
      · exact iff_of_true hupper (by decide)
      · exact absurd ⟨hshift, hcaps⟩ hboth
    · intro hletter
      have hsame := other hletter
      rw [hmap]
      cases hshift : shiftHeld (processed ls) <;> cases hcaps : capsOn (processed ls)
      · rfl
      · exact ((hsame hcaps).resolve_left (by rw [hshift]; decide)).symm
      · rfl
      · rfl
    · rw [length_maps.1, length_maps.2]
      exact ⟨inside, inside⟩

/-! ### Shift and caps lock together -/

/-- The bytes of a shift key and of caps lock, and memory after them. -/
def shiftCaps : List U8 := [0x2A, 0x3A]

def shiftCapsMem : ByteMem := keystrokeMem 0x3A (keystrokeMem 0x2A (clearQueue .zeros))

/-- The keyboard acknowledges the LEDs at once. -/
theorem leds_acknowledged :
    ((ledsFor 0x3A (keystrokeMem 0x2A (clearQueue .zeros))).run 4
      (takeByte (takeByte (Controller.holding shiftCaps)))).isSome = true := by
  decide

theorem shift_step : Step Controller.arrive
    ⟨⟨Controller.holding shiftCaps, clearQueue .zeros⟩, .idle⟩ (.irq 0x2A)
    ⟨⟨takeByte (Controller.holding shiftCaps), keystrokeMem 0x2A (clearQueue .zeros)⟩, .idle⟩ :=
  irq_ready rfl rfl

theorem shiftCaps_run : ∃ q, Run (Step Controller.arrive)
    ⟨⟨Controller.holding shiftCaps, clearQueue .zeros⟩, .idle⟩ [.irq 0x2A, .irq 0x3A]
    ⟨⟨q, shiftCapsMem⟩, .idle⟩ := by
  obtain ⟨⟨⟨⟩, q⟩, hleds⟩ := Option.isSome_iff_exists.mp leds_acknowledged
  have caps : keyboardProcessKeystroke.Returns
      ⟨takeByte (Controller.holding shiftCaps), keystrokeMem 0x2A (clearQueue .zeros)⟩ 0x3A
      ⟨q, shiftCapsMem⟩ :=
    returns_processKeystroke.mpr ⟨_, q, (returns_readData (by decide)).mpr ⟨rfl, rfl⟩,
      ⟨4, hleds⟩, rfl⟩
  exact ⟨q, (Run.nil.snoc shift_step).snoc (.irq rfl caps)⟩

/-- With shift, `KB1_SC_A` is an upper case letter. -/
theorem mapsKey_iff_shift :
    MapsKey (fun _ => 0) [0x2A] (Bda.flagsXt (keystrokeMem 0x2A (clearQueue .zeros))) 0x1E :=
  (mapsKey_iff (fun _ => 0) ⟨_, rfl⟩ (Run.nil.snoc shift_step) rfl).mpr
    ⟨by decide, by decide, by decide⟩

/-- With shift and caps lock it is an upper case letter, although they should cancel out. -/
theorem mapsKey_fails :
    ¬ ∀ (beyond : U8 → U8) (m₀ : Machine Controller) (ls : List (Label U8))
        (s : System Controller) (code : U8), AfterInit m₀.mem →
      Run (Step Controller.arrive) ⟨m₀, .idle⟩ ls s → isMake code →
        MapsKey beyond (processed ls) (Bda.flagsXt s.machine.mem) code := by
  intro h
  obtain ⟨q, run⟩ := shiftCaps_run
  have init : AfterInit (clearQueue .zeros) := ⟨_, rfl⟩
  have maps : MapsKey (fun _ => 0) shiftCaps (Bda.flagsXt shiftCapsMem) 0x1E :=
    h (fun _ => 0) ⟨_, clearQueue .zeros⟩ _ _ 0x1E init run rfl
  have hupper := maps.letter (by decide)
  exact absurd (hupper.mp (by decide)) (by decide)

end MyBios.Keyboard
