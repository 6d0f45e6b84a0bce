import MyBios.Interrupt.Registers

/-!
A real-mode interrupt whose handler is a program.

`Registers` takes a handler that changes the frame and memory only. The services of
the BIOS also use devices and the statics of drivers, and one that waits for a device
may not return. Here a handler is a program over a state with memory in it, and so is
the interrupt as a whole.

* `serveInterrupt_enters`: if the interrupt returns, its handler did.
* `serveInterrupt_returns`: if the handler returns and leaves the two stacks alone, so
  does the interrupt, with its registers, and with memory as the handler left it outside
  the two stacks.
-/

namespace MyBios

open Prog Slots

/-! ### The code -/

/-- A state with memory in it. -/
structure MemLens (σ : Type) extends Lens σ ByteMem where
  set_set : ∀ m m' s, set m (set m' s) = set m s

abbrev ServiceRealMode (σ : Type) := U8 → ItrFrameRealMode → Prog σ ItrFrameRealMode

variable {σ : Type}

/-- Run the handler of a vector; `dispatch` for a handler that is a program. -/
def dispatchService (handlers : U16 → Option (ServiceRealMode σ)) (vector : U16)
    (f : ItrFrameRealMode) : Prog σ ItrFrameRealMode :=
  match handlers vector with
  | some handler => handler (vector.setWidth 8) f
  | none => if vector < 0x10 then hlt else pure f

/-- `itr_real_mode_interrupt`; the memory of the state is at `l`. -/
def serveRealMode (l : MemLens σ) (handlers : U16 → Option (ServiceRealMode σ))
    (frame : Nat) : Prog σ Unit := do
  let m ← gets l.get
  let f := completeFrame m frame
  modify (l.set (f.store m frame))
  let g ← dispatchService handlers (m.read16 (prevStack m + 6)) f
  modify fun s => l.set (writeBack (prevStack m) g (g.store (l.get s) frame)) s

/-- INT through the stub of `vector`, to the `iret`. Memory is that of the state. -/
def serveInterrupt (l : MemLens σ) (handlers : U16 → Option (ServiceRealMode σ))
    (ret : U32) (vector : U16) (c : Cpu) : Prog σ Cpu := do
  let m ← gets l.get
  let d := trampolineTo32 ret (interruptHandler vector (interrupt { c with mem := m }))
  modify (l.set d.mem)
  serveRealMode l handlers d.esp.toNat
  let m ← gets l.get
  if m.read32 0x9C008 = 0x12345678 then
    pure (restoreCaller (restoreRegisters (leave32 { d with mem := m })))
  else hlt

/-! ### The two stacks -/

/-- The interrupt stack, or the 14 bytes on the caller's. -/
def OnStacks (c : Cpu) (x : Nat) : Prop :=
  (0x9C000 ≤ x ∧ x < 0x9D000) ∨ (c.stackTop - 14 ≤ x ∧ x < c.stackTop)

/-- What a handler must not store to: `SS:ESP` and the sentinel, and the caller's 14 bytes. -/
def NeededOnStacks (c : Cpu) (x : Nat) : Prop :=
  (0x9C000 ≤ x ∧ x < 0x9C00C) ∨ (c.stackTop - 14 ≤ x ∧ x < c.stackTop - 14 + 14)

/-- The frame that the handler of an INT gets. -/
def requestFrame (c : Cpu) : ItrFrameRealMode := handlerFrame c.frame.esp c.ss c.frame

/-- The processor when the C function is called. -/
def entered (ret : U32) (vector : U16) (c : Cpu) (m : ByteMem) : Cpu :=
  trampolineTo32 ret (interruptHandler vector (interrupt { c with mem := m }))

/-- Memory when the handler is called. -/
def entryMem (ret : U32) (vector : U16) (c : Cpu) (m : ByteMem) : ByteMem :=
  (requestFrame c).store (entered ret vector c m).mem 0x9CFD0

/-- Memory after the C function, when the handler has left `g` and `m`. -/
def exitMem (c : Cpu) (g : ItrFrameRealMode) (m : ByteMem) : ByteMem :=
  writeBack (c.stackTop - 14) g (g.store m 0x9CFD0)

section Stacks

variable {c d : Cpu} {ret : U32} {vector : U16} {m m' : ByteMem} {g : ItrFrameRealMode} {x : Nat}

/-- What the stub and the trampoline push on the caller's stack. -/
theorem mem_callerStack (vector : U16) (hc : CallerStack c) :
    ∃ m, (interruptHandler vector (interrupt c)).pushAll [.half c.gs, .word c.ebp] =
        { c with esp := c.frame.esp, mem := m } ∧
      ∀ x, ¬ (c.stackTop - 14 ≤ x ∧ x < c.stackTop) → m x = c.mem x := by
  have hroom := hc.room
  have hfits : c.sp.toNat ≤ c.stackTop := Nat.le_add_left _ _
  have hchain : (interruptHandler vector (interrupt c)).pushAll [.half c.gs, .word c.ebp] =
      c.pushAll [.half c.flags, .half c.cs, .half c.ip, .half vector, .half c.gs, .word c.ebp] := by
    simp only [interruptHandler, interrupt, Cpu.pushAll, List.foldl_cons, List.foldl_nil]
  have hsize : size [.half c.flags, .half c.cs, .half c.ip, .half vector, .half c.gs,
      .word c.ebp] = 14 := by simp only [size, Slot.size]
  refine ⟨_, by rw [hchain, Cpu.pushAll_spec _ (by omega), hsize]; rfl, fun x hx => ?_⟩
  exact pushSlots_other (by omega) (by omega)

/-- The way in stores to the two stacks only. -/
theorem mem_trampoline (hc : CallerStack c) (hx : ¬ OnStacks c x) :
    (trampolineTo32 ret (interruptHandler vector (interrupt c))).mem x = c.mem x := by
  unfold OnStacks at hx
  have hgs : (interruptHandler vector (interrupt c)).gs = c.gs := by
    simp [interruptHandler, interrupt, Cpu.pushAll]
  have hebp : (interruptHandler vector (interrupt c)).ebp = c.ebp := by
    simp [interruptHandler, interrupt, Cpu.pushAll]
  obtain ⟨m₁, hcall, hother₁⟩ := mem_callerStack vector hc
  obtain ⟨m₃, hpush, -, hother₃⟩ := pushRegisters_spec (d := { c with
    ebp := 0x9C00, gs := 0x9C00, ss := 0x9C00, esp := setLo16 c.frame.esp 0xFEE
    mem := ((m₁.write32 0x9C000 c.frame.esp).write16 0x9C004 c.ss).write32 0x9C008 0x12345678 })
    rfl (lo16_setLo16 _ _)
  have hmem : (trampolineTo32 ret (interruptHandler vector (interrupt c))).mem = m₃ := by
    simp only [trampolineTo32, hgs, hebp, hcall, switchStack_spec, hpush]
    exact (protect_spec _).2.2.2.2.2.2
  have hother := hother₃ x (by omega)
  dsimp only at hother
  rw [hmem, hother, ByteMem.write32_other (by omega), ByteMem.write16_other (by omega),
    ByteMem.write32_other (by omega), hother₁ x (by omega)]

theorem onStacks_of_needed (hc : CallerStack c) (hx : NeededOnStacks c x) : OnStacks c x := by
  have hroom := hc.room
  have hfits : c.sp.toNat ≤ c.stackTop := Nat.le_add_left _ _
  unfold NeededOnStacks at hx
  unfold OnStacks
  omega

/-- So the handler gets memory as it was outside the stacks. -/
theorem entryMem_other (hc : CallerStack c) (hx : ¬ OnStacks c x) :
    entryMem ret vector c m x = m x := by
  have hstack := hx
  unfold OnStacks at hstack
  rw [entryMem, store_other (by omega)]
  exact mem_trampoline (c := { c with mem := m }) ⟨hc.room, hc.apart⟩ hx

theorem exitMem_other (hc : CallerStack c) (hx : ¬ OnStacks c x) : exitMem c g m x = m x := by
  have hroom := hc.room
  have hfits : c.sp.toNat ≤ c.stackTop := Nat.le_add_left _ _
  unfold OnStacks at hx
  rw [exitMem, writeBack_other (by omega), store_other (by omega)]

end Stacks

/-! ### The interrupt as a whole -/

section Serve

variable {l : MemLens σ} {handlers : U16 → Option (ServiceRealMode σ)}
  {handler : ServiceRealMode σ} {c d : Cpu} {ret : U32} {vector : U16} {s t u : σ}
  {g : ItrFrameRealMode}

/-- The stacks when the C function is called. -/
theorem stacks_entered (ret : U32) (vector : U16) (hc : CallerStack c) (m : ByteMem) :
    (entered ret vector c m).esp.toNat = 0x9CFD0 ∧
      Stacks c.frame.esp c.ss vector c.frame (entered ret vector c m).mem ∧
      linear c.ss (lo16 c.frame.esp) = c.stackTop - 14 := by
  obtain ⟨d, henter, hesp, -, hs⟩ :=
    enter_spec (c := { c with mem := m }) ret vector ⟨hc.room, hc.apart⟩
  refine ⟨(congrArg (Cpu.esp · |>.toNat) henter).trans hesp, ?_, ?_⟩
  · rw [entered, henter]
    exact hs
  · rw [Cpu.frame, lo16_setLo16]
    exact (linear_sub _ hc.room).1

/-- The C function is the handler between the frame and its copy back. -/
theorem returns_serveRealMode (hc : CallerStack c) (hhandler : handlers vector = some handler)
    {m : ByteMem} {w : σ} :
    (serveRealMode l handlers 0x9CFD0).Returns (l.set (entered ret vector c m).mem s) () w ↔
      ∃ g u, (handler (vector.setWidth 8) (requestFrame c)).Returns
          (l.set (entryMem ret vector c m) s) g u ∧ w = l.set (exitMem c g (l.get u)) u := by
  obtain ⟨-, hs, hbase⟩ := stacks_entered ret vector hc m
  have hvector : (entered ret vector c m).mem.read16 (c.stackTop - 14 + 6) = vector := by
    rw [← hbase]
    exact hs.caller.2.2.1
  have hprev : prevStack (entered ret vector c m).mem = c.stackTop - 14 :=
    (prevStack_eq hs).trans hbase
  have hframe : completeFrame (entered ret vector c m).mem 0x9CFD0 = requestFrame c :=
    completeFrame_eq hs
  have hget : (gets l.get).Returns (l.set (entered ret vector c m).mem s)
      (entered ret vector c m).mem (l.set (entered ret vector c m).mem s) :=
    returns_gets.mpr ⟨(l.get_set _ _).symm, rfl⟩
  have hstore : (modify (l.set (entryMem ret vector c m))).Returns
      (l.set (entered ret vector c m).mem s) () (l.set (entryMem ret vector c m) s) :=
    returns_modify.mpr (l.set_set _ _ _).symm
  rw [serveRealMode, hget.bind_iff]
  simp only [hframe, hprev, hvector]
  rw [← entryMem, hstore.bind_iff, dispatchService, hhandler]
  simp only [returns_bind, returns_modify]
  rfl

/-- The interrupt is its handler between the way in and the way out. -/
theorem returns_serveInterrupt (hc : CallerStack c) (hhandler : handlers vector = some handler) :
    (serveInterrupt l handlers ret vector c).Returns s d t ↔
      ∃ g u, (handler (vector.setWidth 8) (requestFrame c)).Returns
          (l.set (entryMem ret vector c (l.get s)) s) g u ∧
        t = l.set (exitMem c g (l.get u)) u ∧
        (exitMem c g (l.get u)).read32 0x9C008 = 0x12345678 ∧
        d = restoreCaller (restoreRegisters
          (leave32 { entered ret vector c (l.get s) with mem := exitMem c g (l.get u) })) := by
  obtain ⟨hesp, -, -⟩ := stacks_entered ret vector hc (l.get s)
  have hget : (gets l.get).Returns s (l.get s) s := returns_gets.mpr ⟨rfl, rfl⟩
  have henter : (modify (l.set (entered ret vector c (l.get s)).mem)).Returns s ()
      (l.set (entered ret vector c (l.get s)).mem s) := returns_modify.mpr rfl
  rw [serveInterrupt, hget.bind_iff]
  simp only
  rw [← entered, henter.bind_iff, hesp]
  simp only [returns_bind, returns_serveRealMode hc hhandler, returns_gets]
  constructor
  · rintro ⟨_, w, ⟨g, u, hrun, rfl⟩, _, _, ⟨rfl, rfl⟩, hleave⟩
    rw [l.get_set] at hleave
    by_cases hsentinel : (exitMem c g (l.get u)).read32 0x9C008 = 0x12345678
    · rw [if_pos hsentinel] at hleave
      obtain ⟨rfl, rfl⟩ := returns_pure.mp hleave
      exact ⟨g, u, hrun, rfl, hsentinel, rfl⟩
    · rw [if_neg hsentinel] at hleave
      exact absurd hleave not_returns_hlt
  · rintro ⟨g, u, hrun, rfl, hsentinel, rfl⟩
    refine ⟨(), _, ⟨g, u, hrun, rfl⟩, _, _, ⟨rfl, rfl⟩, ?_⟩
    rw [l.get_set, if_pos hsentinel]
    exact returns_pure.mpr ⟨rfl, rfl⟩

/-- The way out of a handler that has left alone what is needed: the registers are the fields
of the frame. -/
theorem leave_spec (ret : U32) (vector : U16) (hc : CallerStack c) (m : ByteMem)
    {m' : ByteMem} (hkept : ∀ x, NeededOnStacks c x → m' x = entryMem ret vector c m x) :
    (exitMem c g m').read32 0x9C008 = 0x12345678 ∧
      ∀ d, d = restoreCaller (restoreRegisters
          (leave32 { entered ret vector c m with mem := exitMem c g m' })) →
        (∀ r, d.reg r = r.get g) ∧ d.ss = c.ss ∧ d.esp = c.esp := by
  obtain ⟨hesp, hs, hbase⟩ := stacks_entered ret vector hc m
  have hroom := hc.room
  have hsp := c.sp.isLt
  have hapart := hc.apart
  have hfits : c.sp.toNat ≤ c.stackTop := Nat.le_add_left _ _
  have hlow : (lo16 c.frame.esp).toNat = c.sp.toNat - 14 := by
    rw [Cpu.frame, lo16_setLo16]
    exact (linear_sub c.ss hroom).2
  -- for this one call, a handler that always does the same
  obtain ⟨handlers, hhandlers⟩ : ∃ handlers : U16 → Option ItrHandlerRealMode,
      ∀ v, handlers v = some fun _ _ _ => (g, m') := ⟨fun _ => some _, fun _ => rfl⟩
  obtain ⟨m'', hrun, hs'⟩ := itrRealModeInterrupt_spec hs (hhandlers vector)
    (by rw [hbase]; omega) rfl (by rw [hbase]; exact hkept)
  have hexit : m'' = exitMem c g m' := by
    rw [itrRealModeInterrupt, completeFrame_eq hs, prevStack_eq hs, hbase, dispatch,
      hhandlers] at hrun
    exact (Option.some.inj hrun).symm
  subst hexit
  refine ⟨hs'.sentinel.1, ?_⟩
  rintro d rfl
  obtain ⟨esp, hregisters⟩ := restoreRegisters_spec
    (c := leave32 { entered ret vector c m with mem := exitMem c g m' }) (f := g) hesp
    hs'.registers
  have hcaller := restoreCaller_spec
    (c := restoreRegisters (leave32 { entered ret vector c m with mem := exitMem c g m' }))
    (f := g) (by rw [hregisters]) (by rw [hregisters]; exact hs') (by omega)
  refine ⟨?_, ?_, ?_⟩
  · intro r
    rw [hcaller, hregisters]
    cases r <;> rfl
  · rw [hcaller]
  · rw [hcaller]
    show setLo16 (setLo16 c.esp (c.sp - 14)) (lo16 (setLo16 c.esp (c.sp - 14)) + 14) = c.esp
    rw [lo16_setLo16, setLo16_setLo16, BitVec.sub_add_cancel]
    exact hi16_append_lo16 _

/-- If the interrupt returns, its handler did. -/
theorem serveInterrupt_enters (hc : CallerStack c) (hhandler : handlers vector = some handler)
    (h : (serveInterrupt l handlers ret vector c).Returns s d t) :
    ∃ g u, (handler (vector.setWidth 8) (requestFrame c)).Returns
        (l.set (entryMem ret vector c (l.get s)) s) g u ∧ t = l.set (exitMem c g (l.get u)) u := by
  obtain ⟨g, u, hrun, rfl, -⟩ := (returns_serveInterrupt hc hhandler).mp h
  exact ⟨g, u, hrun, rfl⟩

/-- If the handler returns and has left the stacks alone, the interrupt returns. -/
theorem serveInterrupt_returns (ret : U32) (hc : CallerStack c)
    (hhandler : handlers vector = some handler)
    (hrun : (handler (vector.setWidth 8) (requestFrame c)).Returns
      (l.set (entryMem ret vector c (l.get s)) s) g u)
    (hkept : ∀ x, NeededOnStacks c x → l.get u x = entryMem ret vector c (l.get s) x) :
    ∃ d, (serveInterrupt l handlers ret vector c).Returns s d (l.set (exitMem c g (l.get u)) u) ∧
      (∀ r, d.reg r = r.get g) ∧ d.ss = c.ss ∧ d.esp = c.esp := by
  obtain ⟨hsentinel, hleave⟩ := leave_spec (g := g) ret vector hc (l.get s) hkept
  exact ⟨_, (returns_serveInterrupt hc hhandler).mpr ⟨g, u, hrun, rfl, hsentinel, rfl⟩,
    hleave _ rfl⟩

end Serve

end MyBios
