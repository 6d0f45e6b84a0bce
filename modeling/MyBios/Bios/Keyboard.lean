import MyBios.Interrupt.Frame
import MyBios.Keyboard.Map

/-!
INT 16h (`bios_handle_keyboard_interrupt`).
-/

namespace MyBios

open Prog

variable {δ : Type} [Bus δ]

/-- The reply to a read or a check: the code in AH, its character in AL. -/
def scancodeReply (beyond : U8 → U8) (xt scancode : U8) (frame : ItrFrameRealMode) :
    ItrFrameRealMode :=
  (frame.setAh scancode).setAl (keyboardMap beyond xt scancode)

/-- `bios_handle_keyboard_interrupt`, entered with `itr_enabled() = itr`. -/
def biosHandleKeyboardInterrupt (beyond : U8 → U8) (itr : Bool) (frame : ItrFrameRealMode) :
    Prog (Machine δ) ItrFrameRealMode :=
  if frame.ah = 0x01 ∨ frame.ah = 0x11 then do
    let scancode ← keyboardGetScancode itr
    let xt ← gets fun m => Bda.flagsXt m.mem
    if scancode ≠ 0 then
      pure (scancodeReply beyond xt scancode { frame with flags := frame.flags &&& ~~~0x40 })
    else pure ({ frame with flags := frame.flags ||| 0x40 }.setAl 0)
  else if frame.ah = 0x00 ∨ frame.ah = 0x10 then do
    waitAvailable
    let scancode ← keyboardPopScancode itr
    let xt ← gets fun m => Bda.flagsXt m.mem
    pure (scancodeReply beyond xt scancode frame)
  else if frame.ah = 0x02 then do
    let xt ← gets fun m => Bda.flagsXt m.mem
    pure (frame.setAx (xt.setWidth 16))
  else if frame.ah = 0x12 then do
    let at_ ← gets fun m => Bda.flagsAt m.mem
    pure (frame.setAx (at_.setWidth 16))
  else pure frame

end MyBios
