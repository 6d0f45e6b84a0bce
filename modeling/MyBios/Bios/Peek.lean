import MyBios.Keyboard.Flags

/-!
INT 16h: checks of the keyboard and the read after them.

Inside the handler interrupts are disabled, and so only the handler itself moves the
queue. A check that finds a key may have polled the controller, processed break codes and
queued a make code before; what it reports is the code at the tail of the queue it leaves.

`check_then_read`: from there on every check reports the same AX and does nothing else,
and the next read returns that AX and advances the tail by one.
-/

namespace MyBios.Keyboard

open Prog

variable {δ : Type} [Bus δ]

/-- INT 16h AH=01/11. -/
def IsCheck (frame : ItrFrameRealMode) : Prop := frame.ah = 0x01 ∨ frame.ah = 0x11

/-- INT 16h AH=00/10. -/
def IsRead (frame : ItrFrameRealMode) : Prop := frame.ah = 0x00 ∨ frame.ah = 0x10

/-- The zero flag of a reply is clear: there is a key. -/
def KeyFound (reply : ItrFrameRealMode) : Prop := reply.flags &&& 0x40 = 0

/-- A run of checks with their replies, in the last of which the machine is `t`. Between
them the devices may do anything. -/
inductive Checks (beyond : U8 → U8) (m : Machine δ) :
    List ItrFrameRealMode → Machine δ → Prop where
  | nil : Checks beyond m [] m
  | env {replies t} (d : δ) : Checks beyond m replies t →
      Checks beyond m replies { t with io := { t.io with dev := d } }
  | check {replies t u frame reply} : Checks beyond m replies t → IsCheck frame →
      (biosHandleKeyboardInterrupt beyond false frame).Returns t reply u →
        Checks beyond m (replies ++ [reply]) u

/-! ### One call -/

section Calls

variable {beyond : U8 → U8} {m m' : Machine δ} {frame reply : ItrFrameRealMode} {c : U8}

/-- The AX of a reply: a code and its character. -/
def replyAx (beyond : U8 → U8) (m : ByteMem) : U16 :=
  oldest m ++ keyboardMap beyond (Bda.flagsXt m) (oldest m)

theorem ax_scancodeReply {xt scancode : U8} :
    (scancodeReply beyond xt scancode frame).ax = scancode ++ keyboardMap beyond xt scancode := by
  show lo16 (setLo8 (setHi8 frame.eax scancode) _) = _
  rw [setLo8, lo16_append, hi8_setHi8]

/-- With a code queued, `keyboard_get_scancode` returns it and does nothing else. -/
theorem getScancode_queued (h : queued m.mem) :
    (keyboardGetScancode false).Returns m (oldest m.mem) m := by
  rw [keyboardGetScancode, if_neg (by decide)]
  exact returns_loop.mpr (.inl (pollOnce_queued h))

/-- A code that is not 0 comes from the queue. -/
theorem getScancode_found (h : (keyboardGetScancode false).Returns m c m') (hc : c ≠ 0) :
    queued m'.mem ∧ c = oldest m'.mem := by
  rw [keyboardGetScancode, if_neg (by decide)] at h
  obtain ⟨⟨⟩, m₁, -, hlast⟩ := h.loop_induct (I := fun _ _ => True) (fun _ _ _ _ _ _ => trivial)
    trivial
  rcases pollOnce_done hlast with ⟨hqueued, rfl, rfl⟩ | ⟨-, rfl, -⟩
  · exact ⟨hqueued, rfl⟩
  · exact absurd rfl hc

/-- A wait with a code queued is over at once. -/
theorem waitAvailable_queued (h : queued m.mem) : waitAvailable.Returns m () m :=
  returns_loop.mpr (.inl (returns_checkPass.mpr ⟨true, available_queued h, rfl⟩))

/-- A flag that was set is set. -/
theorem flags_set (flags : U16) : ¬ (flags ||| 0x40) &&& 0x40 = 0 := by
  intro h
  have hbit := congrArg (fun x : U16 => x.getLsbD 6) h
  simp at hbit

theorem flags_cleared (flags : U16) : flags &&& ~~~0x40 &&& 0x40 = 0 := by
  rw [BitVec.and_assoc]
  exact BitVec.and_zero

/-- There is a key to report: a code is queued, and it is not 0. -/
def KeyQueued (m : ByteMem) : Prop := queued m ∧ oldest m ≠ 0

instance (m : ByteMem) : Decidable (KeyQueued m) :=
  inferInstanceAs (Decidable (queued m ∧ oldest m ≠ 0))

theorem handle_check (h : IsCheck frame) :
    (biosHandleKeyboardInterrupt beyond false frame : Prog (Machine δ) _) = (do
      let scancode ← keyboardGetScancode false
      let xt ← gets fun m => Bda.flagsXt m.mem
      if scancode ≠ 0 then
        pure (scancodeReply beyond xt scancode { frame with flags := frame.flags &&& ~~~0x40 })
      else pure ({ frame with flags := frame.flags ||| 0x40 }.setAl 0)) :=
  if_pos h

theorem handle_read (h : IsRead frame) :
    (biosHandleKeyboardInterrupt beyond false frame : Prog (Machine δ) _) = (do
      waitAvailable
      let scancode ← keyboardPopScancode false
      let xt ← gets fun m => Bda.flagsXt m.mem
      pure (scancodeReply beyond xt scancode frame)) := by
  have hcheck : ¬ (frame.ah = 0x01 ∨ frame.ah = 0x11) := by
    rcases h with h | h <;> rw [h] <;> decide
  exact (if_neg hcheck).trans (if_pos h)

/-- A check that reports a key reports the one at the tail. -/
theorem checkKey_found (hcheck : IsCheck frame)
    (h : (biosHandleKeyboardInterrupt beyond false frame).Returns m reply m')
    (found : KeyFound reply) : KeyQueued m'.mem ∧ reply.ax = replyAx beyond m'.mem := by
  rw [handle_check hcheck] at h
  obtain ⟨c, m₁, hget, h⟩ := returns_bind.mp h
  rw [(returns_gets.mpr ⟨rfl, rfl⟩).bind_iff] at h
  by_cases hc : c ≠ 0
  · rw [if_pos hc] at h
    obtain ⟨rfl, rfl⟩ := returns_pure.mp h
    obtain ⟨hqueued, rfl⟩ := getScancode_found hget hc
    exact ⟨⟨hqueued, hc⟩, ax_scancodeReply⟩
  · rw [if_neg hc] at h
    obtain ⟨rfl, rfl⟩ := returns_pure.mp h
    exact absurd found (flags_set _)

/-- With a key queued, a check reports it and does nothing else. -/
theorem checkKey_queued (hkey : KeyQueued m.mem) (hcheck : IsCheck frame) :
    Total (biosHandleKeyboardInterrupt beyond false frame) m fun reply t =>
      reply.ax = replyAx beyond m.mem ∧ KeyFound reply ∧ t = m := by
  have reply : (if oldest m.mem ≠ 0 then
      (pure (scancodeReply beyond (Bda.flagsXt m.mem) (oldest m.mem)
        { frame with flags := frame.flags &&& ~~~0x40 }) : Prog (Machine δ) _)
      else pure ({ frame with flags := frame.flags ||| 0x40 }.setAl 0)).Returns m
        (scancodeReply beyond (Bda.flagsXt m.mem) (oldest m.mem)
          { frame with flags := frame.flags &&& ~~~0x40 }) m := by
    rw [if_pos hkey.2]
    exact returns_pure.mpr ⟨rfl, rfl⟩
  rw [handle_check hcheck]
  exact ⟨_, m, (getScancode_queued hkey.1).bind ((returns_gets.mpr ⟨rfl, rfl⟩).bind reply),
    ax_scancodeReply, flags_cleared _, rfl⟩

/-- With a key queued, a read reports it and advances the tail. -/
theorem readKey_queued (hkey : KeyQueued m.mem) (hread : IsRead frame) :
    Total (biosHandleKeyboardInterrupt beyond false frame) m fun reply t =>
      reply.ax = replyAx beyond m.mem ∧ t = { m with mem := advanceTail m.mem } := by
  have pop : (keyboardPopScancode false).Returns m (oldest m.mem)
      { m with mem := advanceTail m.mem } := by
    refine (getScancode_queued hkey.1).bind (.bind (a := ()) (returns_modify.mpr rfl) ?_)
    exact returns_pure.mpr ⟨rfl, rfl⟩
  have hflags : Bda.flagsXt (advanceTail m.mem) = Bda.flagsXt m.mem :=
    congrArg KbFlags.xt flagsOf_advanceTail
  rw [handle_read hread]
  refine ⟨_, _, (waitAvailable_queued hkey.1).bind (pop.bind ((returns_gets.mpr ⟨rfl, rfl⟩).bind
    (returns_pure.mpr ⟨rfl, rfl⟩))), ?_, rfl⟩
  rw [ax_scancodeReply, hflags, replyAx]

end Calls

/-! ### Any number of calls -/

section Runs

variable {beyond : U8 → U8} {m m' t : Machine δ} {frame reply : ItrFrameRealMode}
  {replies : List ItrFrameRealMode}

/-- What a run of checks from `m` to `t` leaves: the key with the code and character `x`. -/
structure StillThere (beyond : U8 → U8) (x : U16) (m : Machine δ)
    (replies : List ItrFrameRealMode) (t : Machine δ) : Prop where
  /-- Every check has reported it. -/
  replies : ∀ reply ∈ replies, reply.ax = x ∧ KeyFound reply
  /-- No check has touched memory or a port. -/
  mem : t.mem = m.mem
  log : t.io.log = m.io.log
  /-- One check more returns, reports it, and does nothing else. -/
  check : ∀ frame, IsCheck frame →
    Total (biosHandleKeyboardInterrupt beyond false frame) t fun reply u =>
      reply.ax = x ∧ KeyFound reply ∧ u = t
  /-- A read returns, reports it, and takes it off the queue. -/
  read : ∀ frame, IsRead frame →
    Total (biosHandleKeyboardInterrupt beyond false frame) t fun reply u =>
      reply.ax = x ∧ u.io = t.io ∧ u.mem = advanceTail m.mem ∧
        Bda.tail u.mem = (Bda.tail m.mem + 1) % keyboardBufferSize

/-- Checks with a key queued. -/
theorem checks_run (hkey : KeyQueued m.mem) (run : Checks beyond m replies t) :
    (∀ reply ∈ replies, reply.ax = replyAx beyond m.mem ∧ KeyFound reply) ∧
      t.mem = m.mem ∧ t.io.log = m.io.log := by
  induction run with
  | nil => exact ⟨by simp, rfl, rfl⟩
  | env d _ ih => exact ih
  | check _ hcheck hreturns ih =>
      obtain ⟨hreplies, hmem, hlog⟩ := ih
      rw [← hmem] at hkey
      obtain ⟨hax, hfound, rfl⟩ := (checkKey_queued hkey hcheck).returns hreturns
      rw [hmem] at hax
      refine ⟨?_, hmem, hlog⟩
      intro reply hreply
      rcases List.mem_append.mp hreply with hold | hnew
      · exact hreplies reply hold
      · rw [List.mem_singleton.mp hnew]
        exact ⟨hax, hfound⟩

/-- After a check that reports a key, any number of checks report the same and do nothing
else, and then a read returns it and advances the tail by one. -/
theorem check_then_read (hcheck : IsCheck frame)
    (h : (biosHandleKeyboardInterrupt beyond false frame).Returns m reply m')
    (found : KeyFound reply) (run : Checks beyond m' replies t) :
    StillThere beyond reply.ax m' replies t := by
  obtain ⟨hkey, hax⟩ := checkKey_found hcheck h found
  obtain ⟨hreplies, hmem, hlog⟩ := checks_run hkey run
  rw [← hax] at hreplies
  have hkey' := hkey
  rw [← hmem] at hkey'
  refine ⟨hreplies, hmem, hlog, ?_, ?_⟩
  · intro frame' hcheck'
    refine (checkKey_queued hkey' hcheck').mono ?_
    rintro reply' u ⟨hax', hfound', rfl⟩
    exact ⟨by rw [hax', hmem, hax], hfound', rfl⟩
  · intro frame' hread
    refine (readKey_queued hkey' hread).mono ?_
    rintro reply' u ⟨hax', rfl⟩
    refine ⟨by rw [hax', hmem, hax], rfl, by rw [hmem], ?_⟩
    show Bda.tail (advanceTail t.mem) = _
    rw [advanceTail, Bda.tail_setTail, hmem]

end Runs

/-- A queue with the make code of A in it. -/
def keyWaiting : Machine Controller := ⟨Controller.holding [], enqueue 0x1E (clearQueue .zeros)⟩

/-- A check, another byte at the controller, and another check. -/
theorem check_then_read_a :
    ∃ reply t, Checks id keyWaiting [reply] t ∧ t.io.dev.out = [0x30] ∧
      StillThere id 0x1E61 keyWaiting [reply] t := by
  have hcheck : IsCheck (ItrFrameRealMode.zeros.setAh 0x01) := .inl rfl
  have total : ∀ m : Machine Controller, KeyQueued m.mem → replyAx id m.mem = 0x1E61 →
      Total (biosHandleKeyboardInterrupt id false (ItrFrameRealMode.zeros.setAh 0x01)) m
        fun reply t => reply.ax = 0x1E61 ∧ KeyFound reply ∧ t = m := by
    intro m hkey hax
    rw [← hax]
    exact checkKey_queued hkey hcheck
  obtain ⟨reply, t, hfirst, hax, hfound, rfl⟩ := total keyWaiting (by decide) (by decide)
  obtain ⟨reply', u, hsecond, -, -, rfl⟩ := total
    { keyWaiting with io := { keyWaiting.io with dev := (Controller.holding [0x30]).dev } }
    (by decide) (by decide)
  have run : Checks id keyWaiting [reply'] _ := .check (.env _ .nil) hcheck hsecond
  have still := check_then_read hcheck hfirst hfound run
  rw [hax] at still
  exact ⟨_, _, run, rfl, still⟩

end MyBios.Keyboard
