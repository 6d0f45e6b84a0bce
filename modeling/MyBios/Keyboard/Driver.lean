import MyBios.Bda

/-!
The keyboard driver (`keyboard.c`).

The functions that only talk to the controller are `Io` programs; the ones that
touch the BIOS data area are programs of the machine. Loops that poll the
controller are loops here, so a call may fail to return.

`itr_enabled` reads the interrupt flag of the CPU. No function of this file
changes that flag, so the functions that ask for it take it as a parameter.
-/

namespace MyBios

open Prog

variable {δ : Type} [Bus δ]

/-! ### Constants -/

def keyboardDataPort : U16 := 0x60
def keyboardStatusPort : U16 := 0x64
def keyboardCmdPort : U16 := 0x64
def keyboardBufferSize : U16 := 128

def outputBufferFull : U8 := 0x01
def inputBufferFull : U8 := 0x02
def commandData : U8 := 0x08

def kbStateLeftShift : U8 := 0x02
def kbStateRightShift : U8 := 0x01
def kbStateCtrl : U8 := 0x04
def kbStateAlt : U8 := 0x08
def kbStateScrollLock : U8 := 0x10
def kbStateNumLock : U8 := 0x20
def kbStateCapsLock : U8 := 0x40
def kbStateInsert : U8 := 0x80

def kbStateLeftCtrl : U8 := 0x01
def kbStateLeftAlt : U8 := 0x02
def kbStateScrollLockPressed : U8 := 0x10
def kbStateNumLockPressed : U8 := 0x20
def kbStateCapsLockPressed : U8 := 0x40

/-- The scan codes of `enum kb_scancodes_set1` that the driver tests for. -/
def kb1ScLeftCtrl : U8 := 0x1D
def kb1ScLeftShift : U8 := 0x2A
def kb1ScRightShift : U8 := 0x36
def kb1ScLeftAlt : U8 := 0x38
def kb1ScCapslock : U8 := 0x3A
def kb1ScNumlock : U8 := 0x45
def kb1ScScrolllock : U8 := 0x46
def kb1ScInsert : U8 := 0x52

/-! ### Talking to the controller -/

/-- `keyboard_read_data`: a byte, or 0 when none came for more than 18 ticks. -/
def keyboardReadData : Io δ U8 := do
  let time ← timerGetTicks
  let timeout := time + 18
  let timedOut ← loop (fun _ => do
    let status ← inb keyboardStatusPort
    if status &&& outputBufferFull = 0 then do
      let now ← timerGetTicks
      if now > timeout then pure (Pass.done true) else pure (Pass.again ())
    else pure (Pass.done false)) ()
  if timedOut then pure 0 else inb keyboardDataPort

/-- `keyboard_send_data`; the byte is dropped after more than 100 ticks. -/
def keyboardSendData (data : U8) : Io δ Unit := do
  let startTicks ← timerGetTicks
  let timedOut ← loop (fun _ => do
    let status ← inb keyboardStatusPort
    if status &&& inputBufferFull = 0 then pure (Pass.done false)
    else do
      let _printed ← timerGetTicks
      let now ← timerGetTicks
      if now - startTicks > 100 then pure (Pass.done true) else pure (Pass.again ())) ()
  when (!timedOut) (outb keyboardDataPort data)

/-- `keyboard_transact`: the variable `data` holds the byte to send and then
the byte received, and it is what the next round sends. -/
def keyboardTransact (data : U8) : Io δ U8 := do
  let timerTicks ← timerGetTicks
  loop (fun data => do
    keyboardSendData data
    let data ← keyboardReadData
    let now ← timerGetTicks
    if now - timerTicks > 18 then pure (Pass.done 0)
    else if data = 0xFA then pure (Pass.done data)
    else pure (Pass.again data)) data

def controllerCmd (cmd : U8) : Io δ Unit := do
  outb keyboardCmdPort cmd
  loop (fun _ => do
    let status ← inb keyboardStatusPort
    if status &&& commandData = 0 then pure (Pass.again ()) else pure (Pass.done ())) ()

def controllerConfigWrite (data : U8) : Io δ Unit := do
  controllerCmd 0x60
  keyboardSendData data

def controllerConfigRead : Io δ U8 := do
  controllerCmd 0x20
  keyboardReadData

def keyboardReset : Io δ U8 := do
  let _ ← keyboardTransact 0xFF
  keyboardReadData

/-- The LED byte for the flags `xt`. -/
def ledByte (xt : U8) : U8 :=
  (if xt &&& kbStateScrollLock ≠ 0 then 0x01 else 0) |||
  (if xt &&& kbStateNumLock ≠ 0 then 0x02 else 0) |||
  (if xt &&& kbStateCapsLock ≠ 0 then 0x04 else 0)

/-- `update_leds`, with `bda.keyboard_flags_xt` for `xt`. -/
def updateLeds (xt : U8) : Io δ Unit := do
  let _ ← keyboardTransact 0xED
  let _ ← keyboardTransact (ledByte xt)
  pure ()

section Keeps

variable {I : Ports δ → Prop} {v : U8}

/-- The port accesses of these functions keep `I`. -/
structure AccessesKeep (I : Ports δ → Prop) : Prop where
  inb : ∀ port, Keeps I (inb port)
  send : ∀ v, Keeps I (outb keyboardDataPort v)
  ticks : Keeps I timerGetTicks

theorem AccessesKeep.readData (h : AccessesKeep I) : Keeps I keyboardReadData :=
  h.ticks.bind fun _ => Keeps.bind
    (Keeps.loop fun _ => (h.inb _).bind fun _ =>
      (h.ticks.bind fun _ => keeps_pure.ite keeps_pure).ite keeps_pure)
    fun _ => keeps_pure.ite (h.inb _)

theorem AccessesKeep.sendData (h : AccessesKeep I) : Keeps I (keyboardSendData v) :=
  h.ticks.bind fun _ => Keeps.bind
    (Keeps.loop fun _ => (h.inb _).bind fun _ =>
      keeps_pure.ite (h.ticks.bind fun _ => h.ticks.bind fun _ => keeps_pure.ite keeps_pure))
    fun _ => (h.send _).when

theorem AccessesKeep.transact (h : AccessesKeep I) : Keeps I (keyboardTransact v) :=
  h.ticks.bind fun _ => Keeps.loop fun _ => h.sendData.bind fun _ => h.readData.bind fun _ =>
    h.ticks.bind fun _ => keeps_pure.ite (keeps_pure.ite keeps_pure)

theorem AccessesKeep.updateLeds (h : AccessesKeep I) : Keeps I (updateLeds v) :=
  h.transact.bind fun _ => h.transact.bind fun _ => keeps_pure

end Keeps

/-! ### Modifier flags -/

/-- `bda.keyboard_flags_xt` and `bda.keyboard_flags_at`. -/
structure KbFlags where
  xt : U8
  at_ : U8
  deriving DecidableEq

/-- The `switch` for a key that went up. -/
def breakFlags (code : U8) (f : KbFlags) : KbFlags :=
  if code = kb1ScLeftShift then { f with xt := f.xt &&& ~~~kbStateLeftShift }
  else if code = kb1ScRightShift then { f with xt := f.xt &&& ~~~kbStateRightShift }
  else if code = kb1ScLeftCtrl then
    { xt := f.xt &&& ~~~kbStateCtrl, at_ := f.at_ &&& ~~~kbStateLeftCtrl }
  else if code = kb1ScLeftAlt then
    { xt := f.xt &&& ~~~kbStateAlt, at_ := f.at_ &&& ~~~kbStateLeftAlt }
  else if code = kb1ScScrolllock then { f with at_ := f.at_ &&& ~~~kbStateScrollLockPressed }
  else if code = kb1ScNumlock then { f with at_ := f.at_ &&& ~~~kbStateNumLockPressed }
  else if code = kb1ScCapslock then { f with at_ := f.at_ &&& ~~~kbStateCapsLockPressed }
  else if code = kb1ScInsert then { f with xt := f.xt &&& ~~~kbStateInsert }
  else f

/-- The `switch` for a key that went down. -/
def makeFlags (code : U8) (f : KbFlags) : KbFlags :=
  if code = kb1ScLeftShift then { f with xt := f.xt ||| kbStateLeftShift }
  else if code = kb1ScRightShift then { f with xt := f.xt ||| kbStateRightShift }
  else if code = kb1ScLeftCtrl then
    { xt := f.xt ||| kbStateCtrl, at_ := f.at_ ||| kbStateLeftCtrl }
  else if code = kb1ScLeftAlt then
    { xt := f.xt ||| kbStateAlt, at_ := f.at_ ||| kbStateLeftAlt }
  else if code = kb1ScScrolllock then
    { xt := f.xt ^^^ kbStateScrollLock, at_ := f.at_ ||| kbStateScrollLockPressed }
  else if code = kb1ScNumlock then
    { xt := f.xt ^^^ kbStateNumLock, at_ := f.at_ ||| kbStateNumLockPressed }
  else if code = kb1ScCapslock then
    { xt := f.xt ^^^ kbStateCapsLock, at_ := f.at_ ||| kbStateCapsLockPressed }
  else if code = kb1ScInsert then { f with xt := f.xt ^^^ kbStateInsert }
  else f

/-- The keys whose make code calls `update_leds`. -/
def isLockKey (code : U8) : Bool :=
  code = kb1ScScrolllock || code = kb1ScNumlock || code = kb1ScCapslock

/-- A make code: the top bit is clear. -/
def isMake (scancode : U8) : Bool := scancode &&& 0x80 = 0

/-- The flags after `scancode`. -/
def keystrokeFlags (scancode : U8) (f : KbFlags) : KbFlags :=
  if isMake scancode then makeFlags scancode f else breakFlags (scancode &&& 0x7F) f

/-- Store the flags of `scancode`. -/
def updateFlags (scancode : U8) (m : ByteMem) : ByteMem :=
  let f := keystrokeFlags scancode ⟨Bda.flagsXt m, Bda.flagsAt m⟩
  Bda.setFlags f.xt f.at_ m

/-! ### The key queue -/

/-- `bda.keyboard_buffer[head] = scancode`, then
`head = (head + 1) % KEYBOARD_BUFFER_SIZE`. -/
def enqueue (scancode : U8) (m : ByteMem) : ByteMem :=
  let m := Bda.storeKeyboardBuffer (Bda.head m) scancode m
  Bda.setHead ((Bda.head m + 1) % keyboardBufferSize) m

/-- `keyboard_process_keystroke`. -/
def keyboardProcessKeystroke : Prog (Machine δ) U8 := do
  let scancode ← onPorts keyboardReadData
  modify fun m => { m with mem := updateFlags scancode m.mem }
  when (isMake scancode && isLockKey scancode) do
    let xt ← gets fun m => Bda.flagsXt m.mem
    onPorts (updateLeds xt)
  when (isMake scancode) (modify fun m => { m with mem := enqueue scancode m.mem })
  pure scancode

/-- `keyboard_irq_handler`. -/
def keyboardIrqHandler : Prog (Machine δ) Unit := do
  let _ ← keyboardProcessKeystroke
  pure ()

/-- `keyboard_available`: the port is read only when the queue is empty. -/
def keyboardAvailable : Prog (Machine δ) Bool := do
  let queued ← gets fun m => decide (Bda.head m.mem ≠ Bda.tail m.mem)
  if queued then pure true
  else do
    let status ← onPorts (inb keyboardStatusPort)
    pure (decide (status &&& outputBufferFull ≠ 0))

/-- One pass of a loop that waits for `keyboard_available`. -/
def checkPass : Prog (Machine δ) (Pass Unit Unit) := do
  let available ← keyboardAvailable
  pure (if available then Pass.done () else Pass.again ())

/-- `while (!keyboard_available());` -/
def waitAvailable : Prog (Machine δ) Unit := loop (fun _ => checkPass) ()

/-- `bda.keyboard_buffer[bda.keyboard_buffer_tail]`. -/
def peekQueue : Prog (Machine δ) U8 :=
  gets fun m => Bda.keyboardBufferAt m.mem (Bda.tail m.mem)

/-- One call of `keyboard_get_scancode` with interrupts disabled: it returns a
code, or has processed a keystroke and calls itself again. -/
def pollOnce : Prog (Machine δ) (Pass Unit U8) := do
  let queued ← gets fun m => decide (Bda.head m.mem ≠ Bda.tail m.mem)
  if queued then do
    let scancode ← peekQueue
    pure (Pass.done scancode)
  else do
    let available ← keyboardAvailable
    if available then do
      let _ ← keyboardProcessKeystroke
      pure (Pass.again ())
    else pure (Pass.done 0)

/-- `keyboard_get_scancode` with `itr_enabled() = itr`. -/
def keyboardGetScancode (itr : Bool) : Prog (Machine δ) U8 :=
  if itr then do
    waitAvailable
    peekQueue
  else loop (fun _ => pollOnce) ()

/-- `tail = (tail + 1) % KEYBOARD_BUFFER_SIZE`. -/
def advanceTail (m : ByteMem) : ByteMem :=
  Bda.setTail ((Bda.tail m + 1) % keyboardBufferSize) m

/-- `keyboard_pop_scancode`. -/
def keyboardPopScancode (itr : Bool) : Prog (Machine δ) U8 := do
  let scancode ← keyboardGetScancode itr
  modify fun m => { m with mem := advanceTail m.mem }
  pure scancode

/-! ### Initialization -/

/-- Try to reset the keyboard, up to `n` times. -/
def resetAttempts : Nat → Io δ Bool
  | 0 => pure false
  | n + 1 => do
    let result ← keyboardReset
    if result = 0xAA then pure true else resetAttempts n

/-- Ask for scan code set 1, and fall back to set 2 with translation. -/
def selectScanCodeSet : Io δ Unit := do
  let _ ← keyboardTransact 0xF0
  let _ ← keyboardTransact 0x01
  let _ ← keyboardTransact 0xF0
  let _ ← keyboardTransact 0x00
  let set ← keyboardReadData
  if set ≠ 0x1 then do
    let _ ← keyboardTransact 0xF0
    let _ ← keyboardTransact 0x02
    controllerCmd 0x20
    let status ← keyboardReadData
    controllerCmd 0x60
    keyboardSendData (status ||| 0x40)
  else do
    controllerCmd 0x20
    let status ← keyboardReadData
    controllerCmd 0x60
    keyboardSendData (status &&& ~~~0x40)

/-- `keyboard_init` up to its last writes: whether the keyboard came up. -/
def keyboardBringUp : Io δ Bool := do
  controllerCmd 0xAD
  controllerCmd 0xAA
  let status ← keyboardReadData
  if status ≠ 0x55 then pure false
  else do
    let _ ← keyboardTransact 0xED
    let _ ← keyboardTransact 0x07
    let config ← controllerConfigRead
    controllerConfigWrite (config ||| 0x01)
    controllerCmd 0xAE
    let reset ← resetAttempts 10
    if reset then do
      selectScanCodeSet
      let _ ← keyboardTransact 0xED
      let _ ← keyboardTransact 0x00
      pure true
    else pure false

/-- The members `keyboard_init` clears when it succeeds. -/
def clearQueue (m : ByteMem) : ByteMem :=
  Bda.setFlags 0 0 (Bda.setTail 0 (Bda.setHead 0 m))

/-- `keyboard_init`, but for the registration of `keyboard_irq_handler`. -/
def keyboardInit : Prog (Machine δ) Bool := do
  let up ← onPorts keyboardBringUp
  if up then do
    modify fun m => { m with mem := clearQueue m.mem }
    pure true
  else pure false

/-- A successful `keyboard_init` leaves an empty queue at index 0. -/
theorem keyboardInit_leaves {m m' : Machine δ} (h : keyboardInit.Returns m true m') :
    m'.mem = clearQueue m.mem := by
  simp only [keyboardInit, returns_bind, returns_onPorts, returns_ite, returns_modify,
    returns_pure] at h
  obtain ⟨up, m₁, ⟨io, -, rfl⟩, h⟩ := h
  cases up with
  | false => simp at h
  | true =>
      obtain ⟨-, m₂, rfl, -, rfl⟩ := h
      rfl

end MyBios
