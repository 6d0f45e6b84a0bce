import MyBios.Keyboard.Driver

/-!
A keyboard and its controller, as a device of the driver.

`Controller` holds the bytes waiting in the output buffer, oldest first, and a
clock whose readings are arbitrary. The data port takes the oldest byte; a byte
sent to it reaches the keyboard, which acknowledges it with `0xFA`. The input
buffer is never full.

* `returns_readData`: with a byte waiting, `keyboard_read_data` takes it.
* `updateLeds_quiet`: with no make code waiting, an LED transaction leaves none
  behind either, whatever it resends and however it times out.
-/

namespace MyBios

open Prog

structure Controller where
  out : List U8
  clock : Nat → U32
  readings : Nat

namespace Controller

instance : Bus Controller where
  inb port c :=
    if port = keyboardStatusPort then (if c.out = [] then commandData else 0x09, c)
    else if port = keyboardDataPort then (c.out.headD 0, { c with out := c.out.tail })
    else (0xFF, c)
  inw _ c := (0xFFFF, c)
  outb port _ c := if port = keyboardDataPort then { c with out := c.out ++ [0xFA] } else c
  outw _ _ c := c
  ticks c := (c.clock c.readings, { c with readings := c.readings + 1 })

/-- The ports at boot, with `bytes` waiting and a clock that stands still. -/
def holding (bytes : List U8) : Ports Controller := ⟨⟨bytes, fun _ => 0, 0⟩, []⟩

/-- The keyboard sends `b`. -/
def arrive (c : Controller) (b : U8) (c' : Controller) : Prop :=
  c' = { c with out := c.out ++ [b] }

end Controller

variable {p q : Ports Controller}

/-- What reading a waiting byte leaves: the other bytes, and the log. -/
def takeByte (p : Ports Controller) : Ports Controller :=
  ⟨{ p.dev with out := p.dev.out.tail, readings := p.dev.readings + 1 },
    p.log ++ [.inb keyboardStatusPort 0x09] ++ [.inb keyboardDataPort (p.dev.out.headD 0)]⟩

/-- With a byte waiting, `keyboard_read_data` takes it. -/
theorem returns_readData {v : U8} (h : p.dev.out ≠ []) :
    keyboardReadData.Returns p v q ↔ v = p.dev.out.headD 0 ∧ q = takeByte p := by
  have hread : keyboardReadData.Returns p (p.dev.out.headD 0) (takeByte p) := by
    unfold keyboardReadData
    refine returns_bind.mpr ⟨_, _, returns_timerGetTicks.mpr ⟨rfl, rfl⟩,
      returns_bind.mpr ⟨false, ⟨{ p.dev with readings := p.dev.readings + 1 },
        p.log ++ [.inb keyboardStatusPort 0x09]⟩, returns_loop.mpr (.inl ?_), ?_⟩⟩
    · refine returns_bind.mpr ⟨0x09, _, returns_inb.mpr ⟨?_, rfl⟩, ?_⟩
      · exact if_neg h
      · exact returns_pure.mpr ⟨rfl, congrArg (Ports.mk · _) rfl⟩
    · exact returns_inb.mpr ⟨rfl, rfl⟩
  constructor
  · intro h'
    exact h'.functional hread
  · rintro ⟨rfl, rfl⟩
    exact hread

/-! ### LED transactions -/

/-- No make code waits in the controller. -/
def Quiet (p : Ports Controller) : Prop := ∀ b ∈ p.dev.out, isMake b = false

section Quiet

variable {port : U16} {v : U8}

theorem inb_quiet : Keeps Quiet (inb port : Io Controller U8) := by
  intro p v q h hp
  obtain ⟨-, rfl⟩ := returns_inb.mp h
  show ∀ b ∈ (Bus.inb port p.dev).2.out, _
  simp only [Bus.inb]
  split
  · exact hp
  · split
    · exact fun b hb => hp b (List.mem_of_mem_tail hb)
    · exact hp

theorem outb_quiet : Keeps Quiet (outb port v : Io Controller Unit) := by
  refine keeps_modify ?_
  intro p hp
  show ∀ b ∈ (Bus.outb port v p.dev).out, _
  simp only [Bus.outb]
  split
  · intro b hb
    rcases List.mem_append.mp hb with hb | hb
    · exact hp b hb
    · rw [List.mem_singleton.mp hb]; rfl
  · exact hp

theorem timerGetTicks_quiet : Keeps Quiet (timerGetTicks : Io Controller U32) := by
  intro p v q h hp
  obtain ⟨-, rfl⟩ := returns_timerGetTicks.mp h
  exact hp

theorem updateLeds_quiet {xt : U8} : Keeps Quiet (updateLeds xt : Io Controller Unit) := by
  have accesses : AccessesKeep Quiet :=
    ⟨fun _ => inb_quiet, fun _ => outb_quiet, timerGetTicks_quiet⟩
  exact accesses.updateLeds

end Quiet

end MyBios
