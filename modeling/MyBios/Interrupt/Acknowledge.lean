import MyBios.Interrupt.Irq
import MyBios.Serial.System

/-!
The end of interrupt of every delivered IRQ.

A run starts with empty tables. Its steps register a handler, deliver an IRQ in
either mode, or let the main program do anything that leaves the tables alone.
`Tables` is what all registrations together make of the two vector tables: the
second one has nothing for IRQ 8 to 15, because `itr_set_irq_handler` adds `0x70`
to the whole IRQ where the PIC adds it to the IRQ less 8.

`irq_acknowledged`: as long as every delivery so far was `Covered`, nothing is in
service, and the next delivery is acknowledged exactly when it is covered too. It
is not when no handler is registered, when the handler is the serial one, which
sends an end of interrupt of its own, or in real mode from IRQ 8 on.
-/

namespace MyBios.Irq

open Prog Lts

/-! ### The PICs -/

/-- The in-service bits of a PIC. -/
abbrev InService := Fin 8 → Bool

/-- A non-specific end of interrupt clears the bit of the highest priority, that is
the lowest one. -/
def InService.eoi (isr : InService) : InService :=
  match (List.finRange 8).find? isr with
  | some i => Function.update isr i false
  | none => isr

/-- A byte written to the command port. -/
def InService.command (isr : InService) (v : U8) : InService := if v = 0x20 then isr.eoi else isr

/-- Both PICs; the slave is at input 2 of the master. -/
structure Pics where
  master : InService
  slave : InService

namespace Pics

/-- Nothing is in service. -/
def idle : Pics := ⟨fun _ => false, fun _ => false⟩

/-- Set or clear the bits of an IRQ. -/
def line (irq : Fin 16) (v : Bool) (p : Pics) : Pics :=
  if h : irq.val < 8 then { p with master := Function.update p.master ⟨irq.val, h⟩ v }
  else
    { master := Function.update p.master 2 v
      slave := Function.update p.slave ⟨irq.val - 8, by omega⟩ v }

/-- The PICs after the commands of a log that extends another by these. -/
def replay (log log' : List PortEvent) (p : Pics) : Pics where
  master := ((writesTo 0x20 log').drop (writesTo 0x20 log).length).foldl .command p.master
  slave := ((writesTo 0xA0 log').drop (writesTo 0xA0 log).length).foldl .command p.slave

end Pics

/-! ### Runs -/

structure System (δ κ ε : Type) where
  board : Board δ κ ε
  pics : Pics

inductive Label where
  | register (irq : Fin 16) (handler : Handler)
  | deliver (mode : CpuMode) (irq : Fin 16)
  | main

variable {δ κ ε : Type}

section Steps

variable [Bus δ] [Callbacks κ ε]

inductive Step : System δ κ ε → Label → System δ κ ε → Prop where
  | register {s : System δ κ ε} {irq : Fin 16} {handler : Handler} :
      Step s (.register irq handler) ⟨itrSetIrqHandler irq handler s.board, s.pics⟩
  | deliver {s : System δ κ ε} {mode : CpuMode} {irq : Fin 16} {b : Board δ κ ε} :
      (deliver mode irq).Returns s.board () b →
        Step s (.deliver mode irq) ⟨b, (s.pics.line irq true).replay s.board.log b.log⟩
  | main {s : System δ κ ε} {b : Board δ κ ε} : s.board.SameTables b → Step s .main ⟨b, s.pics⟩

/-- The tables as the program starts with them, and nothing in service. -/
structure Started (s : System δ κ ε) : Prop where
  irqHandlers : ∀ i, s.board.irqHandlers i = none
  itrHandlers : ∀ v, s.board.itrHandlers v = none
  realModeItrHandlers : ∀ v, s.board.realModeItrHandlers v = none
  pics : s.pics = .idle

/-- The ends of interrupt in a log. -/
def eois (p : U16) (log : List PortEvent) : Nat := (writesTo p log).count 0x20

/-- The delivery returns, has sent one end of interrupt to the master and one to the
slave if it is the slave's, and has cleared the bits of this IRQ only. -/
def Acknowledged (mode : CpuMode) (irq : Fin 16) (s : System δ κ ε) : Prop :=
  Total (deliver mode irq) s.board fun _ b =>
    eois 0x20 b.log = eois 0x20 s.board.log + 1 ∧
    eois 0xA0 b.log = eois 0xA0 s.board.log + (if irq.val ≥ 8 then 1 else 0) ∧
    (s.pics.line irq true).replay s.board.log b.log = (s.pics.line irq true).line irq false

/-- A handler is registered that is not the serial one and that itself returns. -/
def Handled (irq : Fin 16) (b : Board δ κ ε) : Prop :=
  ∃ handler, b.irqHandlers irq.val = some handler ∧ handler ≠ .serial ∧
    ∃ b', handler.run.Returns b () b'

/-- The deliveries that are acknowledged. -/
def Covered (mode : CpuMode) (irq : Fin 16) (b : Board δ κ ε) : Prop :=
  match mode with
  | .protectedMode => irq = 7 ∨ Handled irq b
  | .realMode => irq.val ≤ 1 ∨ irq.val < 8 ∧ Handled irq b

/-- Every delivery is covered. -/
def AllCovered (s : System δ κ ε) : Label → Prop
  | .deliver mode irq => Covered mode irq s.board
  | _ => True

end Steps

/-! ### The tables -/

/-- What registrations make of the tables. -/
structure Tables (b : Board δ κ ε) : Prop where
  protectedMode : ∀ irq : Fin 16, b.itrHandlers (vectorOf 0x20 0x28 irq) =
    (b.irqHandlers irq.val).map fun _ => BitVec.ofNat 32 irq.val
  low : ∀ irq : Fin 16, irq.val < 8 → b.realModeItrHandlers (vectorOf 0x08 0x70 irq) =
    (b.irqHandlers irq.val).map fun _ => BitVec.ofNat 32 irq.val
  high : ∀ irq : Fin 16, irq.val ≥ 8 → b.realModeItrHandlers (vectorOf 0x08 0x70 irq) = none

/-- In protected mode the vector of an IRQ is its own entry. -/
theorem protected_vector : ∀ i irq : Fin 16,
    vectorOf 0x20 0x28 irq = BitVec.ofNat 8 i.val + 0x20 ↔ irq = i := by
  decide

/-- So it is in real mode for the IRQs of the master. -/
theorem low_vector : ∀ i irq : Fin 16, i.val < 8 →
    (vectorOf 0x08 0x70 irq = BitVec.ofNat 8 i.val + 0x8 ↔ irq = i) := by
  decide

/-- The entries made for the IRQs of the slave are those of no IRQ. -/
theorem high_vector : ∀ i irq : Fin 16, i.val ≥ 8 →
    vectorOf 0x08 0x70 irq ≠ BitVec.ofNat 8 i.val + 0x70 := by
  decide

theorem itrSetIrqHandler_high {b : Board δ κ ε} {i : Fin 16} {handler : Handler}
    (hi : i.val ≥ 8) : (itrSetIrqHandler i handler b).realModeItrHandlers =
      Function.update b.realModeItrHandlers (BitVec.ofNat 8 i.val + 0x70)
        (some (BitVec.ofNat 32 i.val)) :=
  if_pos hi

theorem itrSetIrqHandler_low {b : Board δ κ ε} {i : Fin 16} {handler : Handler}
    (hi : ¬ i.val ≥ 8) : (itrSetIrqHandler i handler b).realModeItrHandlers =
      Function.update b.realModeItrHandlers (BitVec.ofNat 8 i.val + 0x8)
        (some (BitVec.ofNat 32 i.val)) :=
  if_neg hi

theorem Tables.start {s : System δ κ ε} (h : Started s) : Tables s.board where
  protectedMode irq := by rw [h.itrHandlers, h.irqHandlers]; rfl
  low irq _ := by rw [h.realModeItrHandlers, h.irqHandlers]; rfl
  high irq _ := h.realModeItrHandlers _

theorem Tables.same {b b' : Board δ κ ε} (h : Tables b) (same : b.SameTables b') : Tables b' := by
  obtain ⟨hirq, hitr, hreal⟩ := same
  refine ⟨?_, ?_, ?_⟩
  · rw [hirq, hitr]
    exact h.protectedMode
  · rw [hirq, hreal]
    exact h.low
  · rw [hreal]
    exact h.high

theorem Tables.register {b : Board δ κ ε} (h : Tables b) (i : Fin 16) (handler : Handler) :
    Tables (itrSetIrqHandler i handler b) := by
  have entry : ∀ irq : Fin 16, irq ≠ i →
      Function.update b.irqHandlers i.val (some handler) irq.val = b.irqHandlers irq.val :=
    fun irq hne => Function.update_of_ne (fun heq => hne (Fin.ext heq)) _ _
  refine ⟨?_, ?_, ?_⟩
  · intro irq
    show Function.update b.itrHandlers _ _ _ = (Function.update b.irqHandlers _ _ _).map _
    by_cases hirq : irq = i
    · subst hirq
      rw [(protected_vector irq irq).mpr rfl, Function.update_self, Function.update_self]
      rfl
    · rw [entry irq hirq, Function.update_of_ne fun heq => hirq ((protected_vector i irq).mp heq)]
      exact h.protectedMode irq
  · intro irq hlow
    show (itrSetIrqHandler i handler b).realModeItrHandlers _ =
      (Function.update b.irqHandlers _ _ _).map _
    by_cases hi : i.val ≥ 8
    · rw [itrSetIrqHandler_high hi, entry irq (by rintro rfl; omega),
        Function.update_of_ne (high_vector i irq hi)]
      exact h.low irq hlow
    · rw [itrSetIrqHandler_low hi]
      by_cases hirq : irq = i
      · subst hirq
        rw [(low_vector irq irq hlow).mpr rfl, Function.update_self, Function.update_self]
        rfl
      · rw [entry irq hirq, Function.update_of_ne fun heq =>
          hirq ((low_vector i irq (by omega)).mp heq)]
        exact h.low irq hlow
  · intro irq hhigh
    by_cases hi : i.val ≥ 8
    · rw [itrSetIrqHandler_high hi, Function.update_of_ne (high_vector i irq hi)]
      exact h.high irq hhigh
    · rw [itrSetIrqHandler_low hi, Function.update_of_ne fun heq => ?_]
      · exact h.high irq hhigh
      · have := (low_vector i irq (by omega)).mp heq
        omega

/-! ### One delivery -/

section Deliver

variable [Bus δ] [Callbacks κ ε] {b b' : Board δ κ ε} {mode : CpuMode} {irq : Fin 16}
  {handler : Handler} {master slave : List U8}

/-- The deliveries that look into a table that may have an entry. -/
def Tabled (mode : CpuMode) (irq : Fin 16) : Prop :=
  match mode with
  | .protectedMode => irq ≠ 7
  | .realMode => 1 < irq.val ∧ irq.val < 8

/-- The deliveries that end in a stub of their own. -/
def Stubbed (mode : CpuMode) (irq : Fin 16) : Prop :=
  match mode with
  | .protectedMode => irq = 7
  | .realMode => irq.val ≤ 1

theorem spurious_vector : ∀ irq : Fin 16, vectorOf 0x20 0x28 irq = 39 ↔ irq = 7 := by
  decide

theorem asm_vector : ∀ irq : Fin 16,
    (vectorOf 0x08 0x70 irq = 0x08 ↔ irq.val = 0) ∧
      (vectorOf 0x08 0x70 irq = 0x09 ↔ irq.val = 1) := by
  decide

theorem deliver_real (h : 1 < irq.val) :
    (deliver .realMode irq : Prog (Board δ κ ε) Unit) =
      itrRealModeInterrupt (vectorOf 0x08 0x70 irq) := by
  have hvector := asm_vector irq
  rw [deliver, realModeVector, if_neg fun heq => absurd (hvector.1.mp heq) (by omega),
    if_neg fun heq => absurd (hvector.2.mp heq) (by omega)]

/-- A registered handler is called by `itr_handle_irq`. -/
theorem deliver_registered (ht : Tables b) (hmode : Tabled mode irq)
    (hhandler : b.irqHandlers irq.val = some handler) :
    (deliver mode irq).Returns b () b' ↔
      (itrHandleIrq (BitVec.ofNat 32 irq.val)).Returns b () b' := by
  cases mode with
  | protectedMode =>
      have entry := ht.protectedMode irq
      rw [hhandler] at entry
      rw [deliver, handleItr, if_neg fun heq => hmode ((spurious_vector irq).mp heq), returns_bind]
      simp only [returns_get]
      constructor
      · rintro ⟨_, _, ⟨rfl, rfl⟩, h⟩
        rwa [entry] at h
      · intro h
        refine ⟨b, b, ⟨rfl, rfl⟩, ?_⟩
        rwa [entry]
  | realMode =>
      have entry := ht.low irq hmode.2
      rw [hhandler] at entry
      rw [deliver_real hmode.1, itrRealModeInterrupt, returns_bind]
      simp only [returns_get]
      constructor
      · rintro ⟨_, _, ⟨rfl, rfl⟩, h⟩
        rwa [entry] at h
      · intro h
        refine ⟨b, b, ⟨rfl, rfl⟩, ?_⟩
        rwa [entry]

/-- Without a handler nothing is sent, if the delivery returns at all. -/
theorem deliver_unregistered (ht : Tables b) (hmode : ¬ Stubbed mode irq)
    (hhandler : Tabled mode irq → b.irqHandlers irq.val = none)
    (h : (deliver mode irq).Returns b () b') : b' = b := by
  cases mode with
  | protectedMode =>
      have entry := ht.protectedMode irq
      rw [hhandler hmode] at entry
      rw [deliver, handleItr, if_neg fun heq => hmode ((spurious_vector irq).mp heq),
        returns_bind] at h
      simp only [returns_get] at h
      obtain ⟨_, _, ⟨rfl, rfl⟩, h⟩ := h
      rw [entry] at h
      exact (returns_pure.mp h).2
  | realMode =>
      have hirq : 1 < irq.val := Nat.lt_of_not_le hmode
      have entry : b.realModeItrHandlers (vectorOf 0x08 0x70 irq) = none := by
        by_cases hlow : irq.val < 8
        · rw [ht.low irq hlow, hhandler ⟨hirq, hlow⟩]
          rfl
        · exact ht.high irq (Nat.le_of_not_lt hlow)
      rw [deliver_real hirq, itrRealModeInterrupt, returns_bind] at h
      simp only [returns_get] at h
      obtain ⟨_, _, ⟨rfl, rfl⟩, h⟩ := h
      rw [entry] at h
      dsimp only at h
      split at h
      · exact absurd h not_returns_hlt
      · exact (returns_pure.mp h).2

/-- A stub sends one end of interrupt to the master. -/
theorem deliver_stub (hmode : Stubbed mode irq) (hb : Commands master slave b.serial.io) :
    ∃ b', (deliver mode irq).Returns b () b' ∧ Commands (master ++ [0x20]) slave b'.serial.io ∧
      b.SameTables b' := by
  cases mode with
  | protectedMode =>
      rw [deliver, handleItr, if_pos ((spurious_vector irq).mpr hmode)]
      exact ⟨_, returns_port.mpr rfl, hb.eoi, rfl, rfl, rfl⟩
  | realMode =>
      have hvector := asm_vector irq
      have hirq : irq.val = 0 ∨ irq.val = 1 := by
        change irq.val ≤ 1 at hmode
        omega
      rcases hirq with hirq | hirq
      · rw [deliver, realModeVector, if_pos (hvector.1.mpr hirq)]
        simp only [returns_bind, returns_zoom, returns_modify, returns_port]
        exact ⟨_, ⟨(), _, ⟨_, rfl, rfl⟩, rfl⟩, hb.eoi, rfl, rfl, rfl⟩
      · rw [deliver, realModeVector, if_neg fun heq => absurd (hvector.1.mp heq) (by omega),
          if_pos (hvector.2.mpr hirq)]
        exact ⟨_, returns_port.mpr rfl, hb.eoi, rfl, rfl, rfl⟩

end Deliver

/-! ### What is sent and what is acknowledged -/

section Acknowledge

variable {b b' : Board δ κ ε} {mode : CpuMode} {irq : Fin 16}
  {master slave : List U8} {s t : System δ κ ε} {l : Label}

/-- One end of interrupt clears the only bit in service. -/
theorem eoi_single : ∀ i : Fin 8,
    InService.eoi (Function.update (fun _ => false) i true) = fun _ => false := by
  decide

theorem line_idle : (Pics.idle.line irq true).line irq false = .idle := by
  rw [Pics.line, Pics.line]
  split
  · simp [Pics.idle]
  · simp [Pics.idle]

/-- The bytes that a log has more than another. -/
theorem replay_commands {ms ss : List U8} {p : Pics} (hb : Commands master slave b.serial.io)
    (hb' : Commands (master ++ ms) (slave ++ ss) b'.serial.io) :
    p.replay b.log b'.log = ⟨ms.foldl .command p.master, ss.foldl .command p.slave⟩ := by
  have hmaster : writesTo 0x20 b'.log = writesTo 0x20 b.log ++ ms := by
    rw [Board.log, Board.log, hb.master]
    exact hb'.master
  have hslave : writesTo 0xA0 b'.log = writesTo 0xA0 b.log ++ ss := by
    rw [Board.log, Board.log, hb.slave]
    exact hb'.slave
  rw [Pics.replay, hmaster, hslave, List.drop_left, List.drop_left]

theorem irq_data {irq : Fin 16} : (BitVec.ofNat 32 irq.val).toNat = irq.val := by
  rw [BitVec.toNat_ofNat]
  exact Nat.mod_eq_of_lt (by omega)

theorem slave_data : ∀ irq : Fin 16, BitVec.ofNat 32 irq.val ≥ 8 ↔ irq.val ≥ 8 := by
  decide

/-- Exactly these commands acknowledge an IRQ when nothing else is in service. -/
theorem acknowledges (hb : Commands master slave b.serial.io)
    (hb' : Commands (master ++ [0x20]) (slave ++ if irq.val ≥ 8 then [0x20] else [])
      b'.serial.io) :
    eois 0x20 b'.log = eois 0x20 b.log + 1 ∧
    eois 0xA0 b'.log = eois 0xA0 b.log + (if irq.val ≥ 8 then 1 else 0) ∧
    (Pics.idle.line irq true).replay b.log b'.log = (Pics.idle.line irq true).line irq false := by
  refine ⟨?_, ?_, ?_⟩
  · rw [eois, eois, Board.log, Board.log, hb.master, hb'.master, List.count_append]
    rfl
  · rw [eois, eois, Board.log, Board.log, hb.slave, hb'.slave, List.count_append]
    split
    · rfl
    · rfl
  · rw [replay_commands hb hb', line_idle, Pics.line]
    by_cases hirq : irq.val < 8
    · rw [dif_pos hirq, if_neg (by omega)]
      exact congrArg (Pics.mk · Pics.idle.slave) (eoi_single ⟨irq.val, hirq⟩)
    · rw [dif_neg hirq, if_pos (by omega)]
      exact congrArg₂ Pics.mk (eoi_single 2) (eoi_single ⟨irq.val - 8, by omega⟩)

variable [Bus δ] [Callbacks κ ε]

theorem covered_iff :
    Covered mode irq b ↔ Stubbed mode irq ∨ Tabled mode irq ∧ Handled irq b := by
  cases mode with
  | protectedMode =>
      show irq = 7 ∨ Handled irq b ↔ irq = 7 ∨ irq ≠ 7 ∧ Handled irq b
      tauto
  | realMode =>
      show irq.val ≤ 1 ∨ irq.val < 8 ∧ Handled irq b ↔
        irq.val ≤ 1 ∨ (1 < irq.val ∧ irq.val < 8) ∧ Handled irq b
      constructor
      · rintro (h | ⟨h, handled⟩)
        · exact .inl h
        · by_cases hirq : irq.val ≤ 1
          · exact .inl hirq
          · exact .inr ⟨⟨Nat.lt_of_not_le hirq, h⟩, handled⟩
      · rintro (h | ⟨⟨_, h⟩, handled⟩)
        · exact .inl h
        · exact .inr ⟨h, handled⟩

/-- A covered delivery returns, and sends what acknowledges it. -/
theorem deliver_covered (ht : Tables b) (h : Covered mode irq b)
    (hb : Commands master slave b.serial.io) :
    ∃ b', (deliver mode irq).Returns b () b' ∧
      Commands (master ++ [0x20]) (slave ++ if irq.val ≥ 8 then [0x20] else []) b'.serial.io ∧
        b.SameTables b' := by
  rcases covered_iff.mp h with hstub | ⟨htable, handler, hhandler, hserial, hreturns⟩
  · have hlow : ¬ irq.val ≥ 8 := by
      cases mode with
      | protectedMode =>
          obtain rfl : irq = 7 := hstub
          decide
      | realMode =>
          change irq.val ≤ 1 at hstub
          omega
    rw [if_neg hlow, List.append_nil]
    exact deliver_stub hstub hb
  · have hentry : b.irqHandlers (BitVec.ofNat 32 irq.val).toNat = some handler := by
      rw [irq_data]
      exact hhandler
    obtain ⟨b', hb'⟩ := (returns_itrHandleIrq hentry).mpr hreturns
    obtain ⟨sent, same⟩ := commands_itrHandleIrq hentry hb' hb
    refine ⟨b', (deliver_registered ht htable hhandler).mpr hb', ?_, same⟩
    rw [Handler.sends, if_neg hserial, List.append_nil] at sent
    simpa only [slave_data] using sent

/-- With nothing in service, the covered deliveries are acknowledged and no others. -/
theorem acknowledged_iff (ht : Tables s.board) (hpics : s.pics = .idle) :
    Acknowledged mode irq s ↔ Covered mode irq s.board := by
  have hb : Commands (writesTo 0x20 s.board.log) (writesTo 0xA0 s.board.log) s.board.serial.io :=
    ⟨rfl, rfl⟩
  constructor
  · rintro ⟨_, b, hreturns, hmaster, -⟩
    refine covered_iff.mpr ?_
    by_cases hstub : Stubbed mode irq
    · exact .inl hstub
    · by_cases hhandler : Tabled mode irq ∧ s.board.irqHandlers irq.val ≠ none
      · obtain ⟨htable, hhandler⟩ := hhandler
        obtain ⟨handler, hhandler⟩ := Option.ne_none_iff_exists'.mp hhandler
        have hentry : s.board.irqHandlers (BitVec.ofNat 32 irq.val).toNat = some handler := by
          rw [irq_data]
          exact hhandler
        have hcall := (deliver_registered ht htable hhandler).mp hreturns
        refine .inr ⟨htable, handler, hhandler, ?_, (returns_itrHandleIrq hentry).mp ⟨b, hcall⟩⟩
        -- The serial handler and the dispatcher send one end of interrupt each.
        rintro rfl
        have sent := (commands_itrHandleIrq hentry hcall hb).1.master
        rw [eois, eois, show writesTo 0x20 b.log = _ from sent, List.count_append,
          List.count_append] at hmaster
        have htwo : List.count 0x20 Handler.serial.sends + List.count (0x20 : U8) [0x20] = 2 := by
          decide
        omega
      · -- Nothing is sent.
        have hnone : Tabled mode irq → s.board.irqHandlers irq.val = none :=
          fun htable => by_contra fun hne => hhandler ⟨htable, hne⟩
        obtain rfl := deliver_unregistered ht hstub hnone hreturns
        omega
  · intro h
    obtain ⟨b, hreturns, sent, -⟩ := deliver_covered ht h hb
    have acknowledged := acknowledges hb sent
    rw [← hpics] at acknowledged
    exact ⟨(), b, hreturns, acknowledged⟩

/-- One step keeps what a run starts with. -/
theorem tables_step (ht : Tables s.board) (hpics : s.pics = .idle) (hok : AllCovered s l)
    (h : Step s l t) : Tables t.board ∧ t.pics = .idle := by
  have hb : Commands (writesTo 0x20 s.board.log) (writesTo 0xA0 s.board.log) s.board.serial.io :=
    ⟨rfl, rfl⟩
  cases h with
  | register => exact ⟨ht.register _ _, hpics⟩
  | main same => exact ⟨ht.same same, hpics⟩
  | deliver hreturns =>
      obtain ⟨b', hreturns', sent, same⟩ := deliver_covered ht hok hb
      obtain ⟨-, rfl⟩ := hreturns.functional hreturns'
      refine ⟨ht.same same, ?_⟩
      rw [hpics]
      exact (acknowledges hb sent).2.2.trans line_idle

/-- As long as every delivery is covered nothing stays in service, and a delivery is
acknowledged exactly when it is covered. -/
theorem irq_acknowledged {s₀ : System δ κ ε} {ls : List Label} (init : Started s₀)
    (run : Run (Guarded AllCovered Step) s₀ ls s) :
    s.pics = .idle ∧ ∀ mode irq, Acknowledged mode irq s ↔ Covered mode irq s.board := by
  have h := run.invariant (I := fun _ s => Tables s.board ∧ s.pics = .idle)
    ⟨.start init, init.pics⟩ fun _ _ _ _ ⟨ht, hpics⟩ ⟨hok, hstep⟩ => tables_step ht hpics hok hstep
  exact ⟨h.2, fun _ _ => acknowledged_iff h.1 h.2⟩

end Acknowledge

/-- The empty tables, a line that is always ready and a timer that has never been used. -/
def System.fresh : System Serial.ReadyLine Unit Unit :=
  ⟨⟨Serial.boot, .unused, fun _ => none, fun _ => none, fun _ => none⟩, .idle⟩

theorem started_fresh : Started System.fresh :=
  ⟨fun _ => rfl, fun _ => rfl, fun _ => rfl, rfl⟩

/-- The disk's interrupt in protected mode. -/
theorem irq_acknowledged_disk :
    ∃ t, Run (Guarded AllCovered Step) System.fresh
        [.register 14 .ata, .deliver .protectedMode 14] t ∧
      (t.pics = .idle ∧ ∀ mode irq, Acknowledged mode irq t ↔ Covered mode irq t.board) := by
  have registered : Tables (itrSetIrqHandler 14 .ata System.fresh.board) :=
    (Tables.start started_fresh).register 14 .ata
  have covered : Covered .protectedMode 14 (itrSetIrqHandler 14 .ata System.fresh.board) :=
    .inr ⟨.ata, rfl, by decide, _, returns_pure.mpr ⟨rfl, rfl⟩⟩
  obtain ⟨b, hreturns, -⟩ := deliver_covered registered covered ⟨rfl, rfl⟩
  have registration : Run (Guarded AllCovered Step) System.fresh [.register 14 .ata]
      ⟨itrSetIrqHandler 14 .ata System.fresh.board, .idle⟩ :=
    Run.nil.snoc ⟨trivial, .register⟩
  have delivery : Guarded AllCovered Step ⟨itrSetIrqHandler 14 .ata System.fresh.board, .idle⟩
      (.deliver .protectedMode 14) ⟨b, _⟩ :=
    ⟨covered, .deliver hreturns⟩
  have run := registration.snoc delivery
  exact ⟨_, run, irq_acknowledged started_fresh run⟩

/-- The transmit interrupt is acknowledged twice. -/
theorem irq_acknowledged_fails :
    ¬ ∀ (s₀ s : System Serial.ReadyLine Unit Unit) (ls : List Label), Started s₀ →
      Run Step s₀ ls s → ∀ mode irq, Acknowledged mode irq s := by
  intro h
  have run : Run Step System.fresh [.register 4 .serial] _ := Run.nil.snoc .register
  have acknowledged := h _ _ _ started_fresh run .protectedMode 4
  have tables := (Tables.start started_fresh).register 4 .serial
  have covered := (acknowledged_iff tables rfl).mp acknowledged
  obtain hseven | ⟨handler, hhandler, hserial, -⟩ := covered
  · exact absurd hseven (by decide)
  · exact hserial (Option.some.inj hhandler).symm

end MyBios.Irq
