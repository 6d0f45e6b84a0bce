import Mathlib.Logic.Function.Iterate
import MyBios.Keyboard.Controller
import MyBios.Keyboard.System

/-!
What the keyboard changes in the BIOS data area.

The driver's members of `struct bda` are the two flag bytes, the 32 bytes of
`keyboard_buffer` and the two ring indices. The ring, however, is run modulo
`KEYBOARD_BUFFER_SIZE = 128`, so from index 32 on a make code is stored behind
the array.

* `keyboard_footprint`: in a run whose make codes all find the head below 32,
  only the driver's members change, and each index counts its own advances.
* `burst_stores`: a burst of `n ≤ 98` equal make codes fills the `n` bytes from
  `keyboard_buffer` on, whatever members they belong to.
* `footprint_fails`: so the statement without the condition is false.
-/

namespace MyBios.Keyboard

open Lts

variable {δ ε : Type} {m : ByteMem} {b : U8} {a : Nat}

/-- The members of the data area that belong to the driver. -/
def keyboardFields : List BdaField :=
  [.keyboardFlagsXt, .keyboardFlagsAt, .keyboardBuffer, .keyboardBufferHead, .keyboardBufferTail]

/-- An address inside one of them. -/
def KeyboardAddr (a : Nat) : Prop := ∃ f ∈ keyboardFields, f.addr ≤ a ∧ a < f.addr + f.size

theorem keyboardAddr_iff :
    KeyboardAddr a ↔
      a = 0x417 ∨ a = 0x418 ∨ (0x41e ≤ a ∧ a < 0x43e) ∨ (0x480 ≤ a ∧ a < 0x484) := by
  simp only [KeyboardAddr, keyboardFields, List.mem_cons, List.not_mem_nil, or_false,
    exists_eq_or_imp, exists_eq_left, Bda.addr_flagsXt, Bda.addr_flagsAt, Bda.addr_buffer,
    Bda.addr_head, Bda.addr_tail, BdaField.size]
  omega

/-- No byte of another member is one of the driver's. -/
theorem not_keyboardAddr {f : BdaField} (hf : f ∉ keyboardFields) {i : Nat} (hi : i < f.size) :
    ¬ KeyboardAddr (f.addr + i) := by
  have table : ∀ f ∈ BdaField.all, f ∈ keyboardFields ∨ f.addr + f.size ≤ 0x417 ∨
      (0x419 ≤ f.addr ∧ f.addr + f.size ≤ 0x41e) ∨
      (0x43e ≤ f.addr ∧ f.addr + f.size ≤ 0x480) ∨ 0x484 ≤ f.addr := by
    decide
  have := (table f f.mem_all).resolve_left hf
  rw [keyboardAddr_iff]
  omega

/-! ### The effect of one keystroke -/

theorem updateFlags_other (h : ¬ KeyboardAddr a) : updateFlags b m a = m a := by
  rw [keyboardAddr_iff] at h
  rw [updateFlags, Bda.setFlags, ByteMem.write8_other (by rw [Bda.addr_flagsAt]; omega),
    ByteMem.write8_other (by rw [Bda.addr_flagsXt]; omega)]

@[simp] theorem head_updateFlags : Bda.head (updateFlags b m) = Bda.head m := Bda.head_setFlags

@[simp] theorem tail_updateFlags : Bda.tail (updateFlags b m) = Bda.tail m := Bda.tail_setFlags

/-- A store at an index below 32 stays inside the array. -/
theorem enqueue_other (hslot : (Bda.head m).toNat < 32) (h : ¬ KeyboardAddr a) :
    enqueue b m a = m a := by
  rw [keyboardAddr_iff] at h
  rw [enqueue, Bda.setHead, ByteMem.write16_other (by rw [Bda.addr_head]; omega),
    Bda.storeKeyboardBuffer, ByteMem.write8_other (by rw [Bda.addr_buffer]; omega)]

theorem head_enqueue (hslot : (Bda.head m).toNat < 98) :
    Bda.head (enqueue b m) = (Bda.head m + 1) % keyboardBufferSize := by
  rw [enqueue, Bda.head_setHead, Bda.head_storeKeyboardBuffer hslot]

theorem tail_enqueue (hslot : (Bda.head m).toNat < 98) :
    Bda.tail (enqueue b m) = Bda.tail m := by
  rw [enqueue, Bda.tail_setHead, Bda.tail_storeKeyboardBuffer hslot]

/-- Stepping an index of the 128-slot ring. -/
theorem toNat_nextIndex (i : U16) : ((i + 1) % keyboardBufferSize).toNat = (i.toNat + 1) % 128 := by
  have hi := i.isLt
  rw [BitVec.toNat_umod, BitVec.toNat_add]
  show (i.toNat + 1) % 2 ^ 16 % 128 = _
  omega

theorem keystrokeMem_other (hslot : isMake b → (Bda.head m).toNat < 32)
    (h : ¬ KeyboardAddr a) : keystrokeMem b m a = m a := by
  unfold keystrokeMem
  split
  · rw [enqueue_other (by simpa using hslot ‹_›) h, updateFlags_other h]
  · exact updateFlags_other h

theorem head_keystrokeMem (hslot : isMake b → (Bda.head m).toNat < 98) :
    (Bda.head (keystrokeMem b m)).toNat =
      if isMake b then ((Bda.head m).toNat + 1) % 128 else (Bda.head m).toNat := by
  unfold keystrokeMem
  split
  · rw [head_enqueue (by simpa using hslot ‹_›), toNat_nextIndex, head_updateFlags]
  · rw [head_updateFlags]

theorem tail_keystrokeMem (hslot : isMake b → (Bda.head m).toNat < 98) :
    Bda.tail (keystrokeMem b m) = Bda.tail m := by
  unfold keystrokeMem
  split
  · rw [tail_enqueue (by simpa using hslot ‹_›), tail_updateFlags]
  · rw [tail_updateFlags]

theorem advanceTail_other (h : ¬ KeyboardAddr a) : advanceTail m a = m a := by
  rw [keyboardAddr_iff] at h
  rw [advanceTail, Bda.setTail, ByteMem.write16_other (by rw [Bda.addr_tail]; omega)]

@[simp] theorem head_advanceTail : Bda.head (advanceTail m) = Bda.head m := Bda.head_setTail

theorem tail_advanceTail : (Bda.tail (advanceTail m)).toNat = ((Bda.tail m).toNat + 1) % 128 := by
  rw [advanceTail, Bda.tail_setTail, toNat_nextIndex]

/-! ### Runs -/

/-- Memory as a successful `keyboard_init` leaves it (`keyboardInit_leaves`). -/
def AfterInit (m : ByteMem) : Prop := ∃ before, m = clearQueue before

theorem AfterInit.head_eq (h : AfterInit m) : Bda.head m = 0 := by
  obtain ⟨before, rfl⟩ := h
  simp [clearQueue]

theorem clearQueue_zeros : clearQueue .zeros a = 0 := by
  simp only [clearQueue, Bda.setFlags, Bda.setTail, Bda.setHead, ByteMem.write16, ByteMem.write8,
    ByteMem.zeros]
  repeat' split
  all_goals rfl

theorem AfterInit.tail_eq (h : AfterInit m) : Bda.tail m = 0 := by
  obtain ⟨before, rfl⟩ := h
  simp [clearQueue]

/-- The make codes that the steps `ls` stored, in order. -/
def stored : List (Label ε) → List U8
  | [] => []
  | .irq b :: ls | .poll b :: ls => if isMake b then b :: stored ls else stored ls
  | _ :: ls => stored ls

/-- The codes that the steps `ls` returned to readers, in order. -/
def returned : List (Label ε) → List U8
  | [] => []
  | .pop c :: ls => c :: returned ls
  | _ :: ls => returned ls

theorem stored_append (ls ks : List (Label ε)) : stored (ls ++ ks) = stored ls ++ stored ks := by
  induction ls with
  | nil => rfl
  | cons l ls ih =>
      cases l with
      | irq b | poll b => simp only [List.cons_append, stored]; split <;> simp [ih]
      | _ => exact ih

theorem returned_append (ls ks : List (Label ε)) :
    returned (ls ++ ks) = returned ls ++ returned ks := by
  induction ls with
  | nil => rfl
  | cons l ls ih =>
      cases l with
      | pop c => simp [returned, ih]
      | _ => exact ih

/-- A step that processes a make code finds the head below `n`. -/
def SlotBelow (n : Nat) (m : ByteMem) : Label ε → Prop
  | .irq b | .poll b => isMake b → (Bda.head m).toNat < n
  | _ => True

/-- The indices after the steps `ls` when no make code found the head at `n` or
above: the head has not wrapped, so it counts the stored codes. -/
structure IndicesBelow (n : Nat) (ls : List (Label ε)) (m : ByteMem) : Prop where
  head : (Bda.head m).toNat = (stored ls).length
  le : (stored ls).length ≤ n
  tail : (Bda.tail m).toNat = (returned ls).length % 128

theorem IndicesBelow.init {n : Nat} (h : AfterInit m) : IndicesBelow (ε := ε) n [] m :=
  ⟨by simp [h.head_eq, stored], by simp [stored], by simp [h.tail_eq, returned]⟩

theorem IndicesBelow.keystroke {n : Nat} (hn : n ≤ 98) {ls : List (Label ε)}
    (h : IndicesBelow n ls m) (hslot : isMake b → (Bda.head m).toNat < n) {l : Label ε}
    (hstored : stored [l] = if isMake b then [b] else []) (hreturned : returned [l] = []) :
    IndicesBelow n (ls ++ [l]) (keystrokeMem b m) := by
  have hslot' : isMake b → (Bda.head m).toNat < 98 := fun hb => by have := hslot hb; omega
  have hhead := h.head
  have hle := h.le
  refine ⟨?_, ?_, ?_⟩
  · rw [head_keystrokeMem hslot', stored_append, hstored]
    split
    · have := hslot ‹_›
      rw [List.length_append, List.length_singleton]
      omega
    · simpa using hhead
  · rw [stored_append, hstored]
    split
    · have := hslot ‹_›
      rw [List.length_append, List.length_singleton]
      omega
    · simpa using hle
  · rw [tail_keystrokeMem hslot', returned_append, hreturned, List.append_nil]
    exact h.tail

theorem IndicesBelow.step {n : Nat} (hn : n ≤ 98) {ls : List (Label ε)} {l : Label ε}
    (h : IndicesBelow n ls m) (hslot : SlotBelow n m l) :
    IndicesBelow n (ls ++ [l]) (labelMem l m) := by
  cases l with
  | irq b => exact h.keystroke hn hslot (by simp [stored]) rfl
  | poll b => exact h.keystroke hn hslot (by simp [stored]) rfl
  | pop c =>
      refine ⟨?_, ?_, ?_⟩
      · simpa [labelMem, stored_append, stored] using h.head
      · simpa [stored_append, stored] using h.le
      · have htail := h.tail
        rw [returned_append, List.length_append]
        show (Bda.tail (advanceTail m)).toNat = _
        rw [tail_advanceTail, htail]
        show _ = ((returned ls).length + 1) % 128
        omega
  | _ =>
      refine ⟨?_, ?_, ?_⟩
      · simpa [labelMem, stored_append, stored] using h.head
      · simpa [stored_append, stored] using h.le
      · simpa [labelMem, returned_append, returned] using h.tail

theorem labelMem_other {l : Label ε} (hslot : SlotBelow 32 m l) (h : ¬ KeyboardAddr a) :
    labelMem l m a = m a := by
  cases l with
  | irq b => exact keystrokeMem_other hslot h
  | poll b => exact keystrokeMem_other hslot h
  | pop c => exact advanceTail_other h
  | _ => rfl

/-- Memory `m` after the steps `ls` from `m₀`: other members of the data area
keep their bytes, and each ring index has made its own advances. -/
structure OnlyKeyboardChanged (m₀ : ByteMem) (ls : List (Label ε)) (m : ByteMem) : Prop where
  others : ∀ f ∉ keyboardFields, ∀ i < f.size, m (f.addr + i) = m₀ (f.addr + i)
  head : (Bda.head m).toNat = (stored ls).length % 128
  tail : (Bda.tail m).toNat = (returned ls).length % 128

/-- The condition of `keyboard_footprint`: a make code finds the head inside the
32 bytes of `keyboard_buffer`. -/
def SlotInBuffer (s : System δ) (l : Label ε) : Prop :=
  SlotBelow BdaField.keyboardBuffer.size s.machine.mem l

/-- In a run whose make codes all find the head below 32, the driver changes its
own members only. -/
theorem keyboard_footprint [Bus δ] {env : δ → ε → δ → Prop} {m₀ : Machine δ}
    {ls : List (Label ε)} {s : System δ} (init : AfterInit m₀.mem)
    (run : Run (Guarded SlotInBuffer (Step env)) ⟨m₀, .idle⟩ ls s) :
    OnlyKeyboardChanged m₀.mem ls s.machine.mem := by
  obtain ⟨hmem, hidx⟩ := run.invariant
    (I := fun ls s => (∀ a, ¬ KeyboardAddr a → s.machine.mem a = m₀.mem a) ∧
      IndicesBelow 32 ls s.machine.mem)
    ⟨fun _ _ => rfl, .init init⟩
    fun ls s l t ⟨hmem, hidx⟩ ⟨hslot, hstep⟩ => by
      rw [step_mem hstep]
      exact ⟨fun a ha => (labelMem_other hslot ha).trans (hmem a ha),
        hidx.step (by omega) hslot⟩
  have hle := hidx.le
  exact ⟨fun f hf i hi => hmem _ (not_keyboardAddr hf hi), by rw [hidx.head]; omega, hidx.tail⟩

/-! ### Runs on the controller -/

section Runs

open Prog

variable {p : Ports Controller} {env : Controller → ε → Controller → Prop}

/-- `n` make codes of one key, processed one after the other. -/
def burst (c : U8) (n : Nat) (m : ByteMem) : ByteMem := (keystrokeMem c)^[n] m

/-- With `b` waiting, which is no lock key, a keystroke takes it. -/
theorem processKeystroke_ready {rest : List U8} (hout : p.dev.out = b :: rest)
    (hlock : isLockKey b = false) :
    keyboardProcessKeystroke.Returns ⟨p, m⟩ b ⟨takeByte p, keystrokeMem b m⟩ := by
  have hbyte : b = p.dev.out.headD 0 := by rw [hout, List.headD_cons]
  have hread := (returns_readData (by rw [hout]; exact List.cons_ne_nil b rest)).mpr ⟨hbyte, rfl⟩
  exact returns_processKeystroke.mpr
    ⟨takeByte p, takeByte p, hread, by simp [ledsFor, hlock], rfl⟩

/-- Its interrupt. -/
theorem irq_ready {rest : List U8} (hout : p.dev.out = b :: rest) (hlock : isLockKey b = false) :
    Step env ⟨⟨p, m⟩, .idle⟩ (.irq b) ⟨⟨takeByte p, keystrokeMem b m⟩, .idle⟩ :=
  .irq rfl (processKeystroke_ready hout hlock)

theorem out_takeByte {rest : List U8} (hout : p.dev.out = b :: rest) :
    (takeByte p).dev.out = rest := by
  rw [takeByte, hout, List.tail_cons]

/-- The interrupts of `n` waiting codes of one key, one after the other. -/
theorem burst_run (env : Controller → ε → Controller → Prop) (hlock : isLockKey b = false)
    (rest : List U8) :
    ∀ (n : Nat) (p : Ports Controller) (m : ByteMem), p.dev.out = List.replicate n b ++ rest →
      ∃ q, q.dev.out = rest ∧ Run (Step env) ⟨⟨p, m⟩, .idle⟩ (List.replicate n (.irq b))
        ⟨⟨q, burst b n m⟩, .idle⟩
  | 0, p, _, hout => ⟨p, hout, .nil⟩
  | n + 1, p, m, hout => by
      have hcons : p.dev.out = b :: (List.replicate n b ++ rest) := hout
      obtain ⟨q, hq, run⟩ :=
        burst_run env hlock rest n (takeByte p) (keystrokeMem b m) (out_takeByte hcons)
      exact ⟨q, hq, run.cons (irq_ready hcons hlock)⟩

/-! ### A letter is typed and read -/

/-- What nothing stands in the way of: an interrupt with a byte of no lock key waiting and the
head in the buffer, and the steps of a read with a code queued. -/
def Unhindered (s : System Controller) : Label U8 → Prop
  | .irq b => (Bda.head s.machine.mem).toNat < 32 ∧ isLockKey b = false ∧ s.machine.io.dev.out ≠ []
  | .take _ => queued s.machine.mem
  | .read _ | .check | .pop _ => True
  | _ => False

theorem irq_unhindered {rest : List U8} (hout : p.dev.out = b :: rest) (hlock : isLockKey b = false)
    (hhead : (Bda.head m).toNat < 32) :
    Guarded Unhindered (Step Controller.arrive) ⟨⟨p, m⟩, .idle⟩ (.irq b)
      ⟨⟨takeByte p, keystrokeMem b m⟩, .idle⟩ :=
  ⟨⟨hhead, hlock, by rw [hout]; exact List.cons_ne_nil b rest⟩, irq_ready hout hlock⟩

/-- The steps of a read with interrupts disabled that finds a code queued. -/
theorem read_queued {m : Machine Controller} (hq : queued m.mem) :
    Run (Guarded Unhindered (Step Controller.arrive)) ⟨m, .idle⟩
      [.read false, .check, .take (oldest m.mem), .pop (oldest m.mem)]
      ⟨{ m with mem := advanceTail m.mem }, .idle⟩ := by
  have read : Guarded Unhindered (Step Controller.arrive)
      ⟨m, .idle⟩ (.read false) ⟨m, .wait false⟩ := ⟨trivial, .read⟩
  have check : Guarded Unhindered (Step Controller.arrive)
      ⟨m, .wait false⟩ .check ⟨m, .get false⟩ := ⟨trivial, .check (available_queued hq)⟩
  have take : Guarded Unhindered (Step Controller.arrive)
      ⟨m, .get false⟩ (.take (oldest m.mem)) ⟨m, .advance false (oldest m.mem)⟩ :=
    ⟨hq, .taken hq⟩
  have pop : Guarded Unhindered (Step Controller.arrive)
      ⟨m, .advance false (oldest m.mem)⟩ (.pop (oldest m.mem))
      ⟨{ m with mem := advanceTail m.mem }, .idle⟩ := ⟨trivial, .pop⟩
  exact (((Run.nil.snoc read).snoc check).snoc take).snoc pop

/-- The key A, and the insert key twice and released. -/
def typed : List U8 := [0x1E, 0x52, 0x52, 0xD2]

def typedMem : ByteMem :=
  keystrokeMem 0xD2 (keystrokeMem 0x52 (keystrokeMem 0x52 (keystrokeMem 0x1E (clearQueue .zeros))))

/-- The keys are processed, and the letter is read. -/
def typedLabels : List (Label U8) :=
  [.irq 0x1E, .irq 0x52, .irq 0x52, .irq 0xD2, .read false, .check, .take 0x1E, .pop 0x1E]

theorem typed_run (rest : List U8) :
    ∃ q : Ports Controller, q.dev.out = rest ∧
      Run (Guarded Unhindered (Step Controller.arrive))
        ⟨⟨Controller.holding (typed ++ rest), clearQueue .zeros⟩, .idle⟩ typedLabels
        ⟨⟨q, advanceTail typedMem⟩, .idle⟩ := by
  let p₁ := takeByte (Controller.holding (typed ++ rest))
  let p₂ := takeByte p₁
  let p₃ := takeByte p₂
  have first := irq_unhindered (p := Controller.holding (typed ++ rest)) (m := clearQueue .zeros)
    (b := 0x1E) rfl rfl (by decide)
  have second := irq_unhindered (p := p₁) (m := keystrokeMem 0x1E (clearQueue .zeros))
    (b := 0x52) rfl rfl (by decide)
  have third := irq_unhindered (p := p₂)
    (m := keystrokeMem 0x52 (keystrokeMem 0x1E (clearQueue .zeros))) (b := 0x52) rfl rfl (by decide)
  have fourth := irq_unhindered (p := p₃) (m := keystrokeMem 0x52 (keystrokeMem 0x52
    (keystrokeMem 0x1E (clearQueue .zeros)))) (b := 0xD2) rfl rfl (by decide)
  have hqueued : queued typedMem := by decide
  have read := read_queued (m := ⟨takeByte p₃, typedMem⟩) hqueued
  have holdest : oldest typedMem = 0x1E := by decide
  rw [holdest] at read
  exact ⟨takeByte p₃, rfl, (((read.cons fourth).cons third).cons second).cons first⟩

/-- The run meets the condition, with stores in the buffer and in the flags. -/
theorem keyboard_footprint_typed :
    ∃ s, Run (Guarded SlotInBuffer (Step Controller.arrive))
        ⟨⟨Controller.holding typed, clearQueue .zeros⟩, .idle⟩ typedLabels s ∧
      OnlyKeyboardChanged (clearQueue .zeros) typedLabels s.machine.mem := by
  obtain ⟨q, -, run⟩ := typed_run []
  have guarded : Run (Guarded SlotInBuffer (Step Controller.arrive))
      ⟨⟨Controller.holding typed, clearQueue .zeros⟩, .idle⟩ typedLabels
      ⟨⟨q, advanceTail typedMem⟩, .idle⟩ := by
    refine run.mono fun s l t ⟨hplain, hstep⟩ => ⟨?_, hstep⟩
    cases l with
    | irq b => exact fun _ => hplain.1
    | poll b => exact absurd hplain id
    | _ => trivial
  exact ⟨_, guarded, keyboard_footprint ⟨_, rfl⟩ guarded⟩

end Runs

/-! ### Past the array -/

/-- A burst of `n ≤ 98` make codes from an empty ring fills the first `n` bytes
from `keyboard_buffer` on, also where they belong to other members. -/
theorem burst_stores {c : U8} (hc : isMake c) (hm : Bda.head m = 0) :
    ∀ n ≤ 98, (Bda.head (burst c n m)).toNat = n ∧
      ∀ i < n, burst c n m (BdaField.keyboardBuffer.addr + i) = c
  | 0, _ => ⟨by simp [burst, hm], fun i hi => absurd hi (by omega)⟩
  | n + 1, hn => by
      obtain ⟨hhead, hcells⟩ := burst_stores hc hm n (by omega)
      have hstep : burst c (n + 1) m = keystrokeMem c (burst c n m) :=
        Function.iterate_succ_apply' _ _ _
      have hslot : isMake c → (Bda.head (burst c n m)).toNat < 98 := fun _ => by omega
      rw [hstep]
      refine ⟨by rw [head_keystrokeMem hslot, if_pos hc, hhead]; omega, ?_⟩
      intro i hi
      rw [keystrokeMem, if_pos hc, enqueue, Bda.setHead, Bda.storeKeyboardBuffer,
        ByteMem.write16_other (by rw [Bda.addr_buffer, Bda.addr_head]; omega), head_updateFlags,
        hhead]
      by_cases hin : i = n
      · rw [hin, ByteMem.write8_same]
      · rw [ByteMem.write8_other (by omega), updateFlags, Bda.setFlags,
          ByteMem.write8_other (by rw [Bda.addr_buffer, Bda.addr_flagsAt]; omega),
          ByteMem.write8_other (by rw [Bda.addr_buffer, Bda.addr_flagsXt]; omega)]
        exact hcells i (by omega)

/-- After 44 make codes the last one is in `display_mode`. -/
theorem footprint_fails :
    ¬ ∀ (m₀ : Machine Controller) (ls : List (Label U8)) (s : System Controller),
      AfterInit m₀.mem → Run (Step Controller.arrive) ⟨m₀, .idle⟩ ls s →
        OnlyKeyboardChanged m₀.mem ls s.machine.mem := by
  intro h
  have init : AfterInit (clearQueue .zeros) := ⟨_, rfl⟩
  obtain ⟨q, -, run⟩ := burst_run (b := 0x1E) Controller.arrive rfl [] 44
    (Controller.holding (List.replicate 44 0x1E)) (clearQueue .zeros) (List.append_nil _).symm
  have kept := (h ⟨_, clearQueue .zeros⟩ _ _ init run).others .displayMode (by decide) 0 (by decide)
  have stored := (burst_stores (c := 0x1E) rfl init.head_eq 44 (by omega)).2 43 (by omega)
  have place : BdaField.displayMode.addr + 0 = BdaField.keyboardBuffer.addr + 43 := by decide
  simp only [clearQueue_zeros, place, stored] at kept
  exact absurd kept (by decide)

end MyBios.Keyboard
