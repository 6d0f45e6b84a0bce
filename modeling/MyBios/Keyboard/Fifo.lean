import MyBios.Keyboard.Controller
import MyBios.Keyboard.Footprint
import MyBios.Lib.RingBuffer

/-!
The key queue as a FIFO: what INT 16h reads return against what the keyboard
sent.

A make code that has been sent waits in the controller, then in the queue, and
is then returned. `ReadsInOrder` says that these three, put end to end, are the
make codes sent: nothing is lost, doubled or invented.

* `reads_in_order`: it holds in every run whose steps are `Orderly`.
* `reads_fail`: the condition is needed. A break code alone lets a read through,
  which then returns 0 and moves the tail past the head.
-/

namespace MyBios.Keyboard

open Prog Lts

variable {m m' : ByteMem} {b : U8} {a : Nat}

/-! ### The queue in memory -/

/-- `keyboard_buffer` and what lies behind it, by index. -/
def slot (m : ByteMem) (i : Nat) : U8 := m (BdaField.keyboardBuffer.addr + i)

/-- The codes between tail and head, oldest first. -/
def queue (m : ByteMem) : List U8 :=
  RingBuffer.contents 128 (slot m) (Bda.tail m).toNat (Bda.head m).toNat

/-- Below the ring indices in memory, and before the head wraps. -/
structure Unwrapped (m : ByteMem) : Prop where
  behind : (Bda.tail m).toNat ≤ (Bda.head m).toNat
  below : (Bda.head m).toNat ≤ 98

/-- The queue depends on the slots below the head. -/
theorem queue_congr (h : Unwrapped m) (hslot : ∀ i < 98, slot m i = slot m' i) {tail : Nat}
    (htail : tail ≤ (Bda.head m).toNat) :
    RingBuffer.contents 128 (slot m) tail (Bda.head m).toNat =
      RingBuffer.contents 128 (slot m') tail (Bda.head m).toNat := by
  have hbelow := h.below
  refine RingBuffer.contents_congr fun i hi => hslot _ ?_
  have := RingBuffer.slot_lt htail (by omega) hi
  omega

theorem slot_updateFlags {i : Nat} : slot (updateFlags b m) i = slot m i := by
  rw [slot, updateFlags, Bda.setFlags,
    ByteMem.write8_other (by rw [Bda.addr_buffer, Bda.addr_flagsAt]; omega),
    ByteMem.write8_other (by rw [Bda.addr_buffer, Bda.addr_flagsXt]; omega), slot]

theorem slot_advanceTail {i : Nat} (hi : i < 100) : slot (advanceTail m) i = slot m i := by
  rw [slot, advanceTail, Bda.setTail,
    ByteMem.write16_other (by rw [Bda.addr_buffer, Bda.addr_tail]; omega), slot]

theorem slot_enqueue {i : Nat} (hi : i < 98) :
    slot (enqueue b m) i = Function.update (slot m) (Bda.head m).toNat b i := by
  rw [slot, enqueue, Bda.setHead,
    ByteMem.write16_other (by rw [Bda.addr_buffer, Bda.addr_head]; omega)]
  by_cases h : i = (Bda.head m).toNat
  · rw [h, Function.update_self, Bda.storeKeyboardBuffer, ByteMem.write8_same]
  · rw [Function.update_of_ne h, Bda.storeKeyboardBuffer, ByteMem.write8_other (by omega), slot]

theorem queue_updateFlags (h : Unwrapped m) : queue (updateFlags b m) = queue m := by
  rw [queue, head_updateFlags, tail_updateFlags]
  exact (queue_congr h (fun _ _ => slot_updateFlags.symm) h.behind).symm

theorem Unwrapped.updateFlags (h : Unwrapped m) : Unwrapped (updateFlags b m) :=
  ⟨by simpa using h.behind, by simpa using h.below⟩

/-- Storing a make code appends it. -/
theorem queue_enqueue (h : Unwrapped m) (hhead : (Bda.head m).toNat < 98) :
    queue (enqueue b m) = queue m ++ [b] := by
  have hbehind := h.behind
  have hnext : (Bda.head (enqueue b m)).toNat = (Bda.head m).toNat + 1 := by
    rw [head_enqueue hhead, toNat_nextIndex]
    omega
  have hwrap : ((Bda.head m).toNat + 1) % 128 = (Bda.head m).toNat + 1 := by omega
  have hslots : RingBuffer.contents 128 (slot (enqueue b m)) (Bda.tail m).toNat
      ((Bda.head m).toNat + 1) =
      RingBuffer.contents 128 (Function.update (slot m) (Bda.head m).toNat b) (Bda.tail m).toNat
        ((Bda.head m).toNat + 1) := by
    refine RingBuffer.contents_congr fun i hi => slot_enqueue ?_
    have := RingBuffer.slot_lt (by omega) (by omega) hi
    omega
  rw [queue, hnext, tail_enqueue hhead, hslots, ← hwrap,
    RingBuffer.contents_push (by omega) (by omega) (by omega), queue]

/-- A keystroke appends its code if that is a make code. -/
theorem queue_keystrokeMem (h : Unwrapped m) (hslot : isMake b → (Bda.head m).toNat < 98) :
    queue (keystrokeMem b m) = queue m ++ if isMake b then [b] else [] := by
  unfold keystrokeMem
  split
  · rw [queue_enqueue h.updateFlags (by simpa using hslot ‹_›), queue_updateFlags h]
  · rw [queue_updateFlags h, List.append_nil]

/-- The queue is its oldest code and the queue after advancing the tail. -/
theorem queue_advanceTail (h : Unwrapped m) (hq : queued m) :
    queue m = oldest m :: queue (advanceTail m) := by
  have hbehind := h.behind
  have hbelow := h.below
  have hne : (Bda.head m).toNat ≠ (Bda.tail m).toNat := fun e => hq (BitVec.eq_of_toNat_eq e)
  have htail : (Bda.tail (advanceTail m)).toNat = (Bda.tail m).toNat + 1 := by
    rw [tail_advanceTail]
    omega
  rw [queue, RingBuffer.contents_pop (by omega) (by omega) hne, queue, htail, head_advanceTail]
  refine congrArg₂ List.cons rfl ?_
  rw [Nat.mod_eq_of_lt (by omega)]
  exact queue_congr h (fun i hi => (slot_advanceTail (by omega)).symm) (by omega)

/-! ### What was sent and what was returned -/

/-- The make codes among `bytes`. -/
def makes (bytes : List U8) : List U8 := bytes.filter isMake

@[simp] theorem makes_append {l k : List U8} : makes (l ++ k) = makes l ++ makes k :=
  List.filter_append ..

theorem makes_singleton : makes [b] = if isMake b then [b] else [] := by
  rw [makes, List.filter_cons, List.filter_nil]

/-- The bytes that arrived during the steps `ls`. -/
def arrivals : List (Label U8) → List U8
  | [] => []
  | .env b :: ls => b :: arrivals ls
  | _ :: ls => arrivals ls

theorem arrivals_append (ls ks : List (Label U8)) :
    arrivals (ls ++ ks) = arrivals ls ++ arrivals ks := by
  induction ls with
  | nil => rfl
  | cons l ls ih =>
      cases l with
      | env b => simp [arrivals, ih]
      | _ => exact ih

/-- After the steps `ls`, with `first` waiting at the start: the codes returned
are the first make codes sent, those queued and waiting are the rest, and the
ring indices have the advances of their own side, the tail not past the head. -/
structure ReadsInOrder (first : List U8) (ls : List (Label U8)) (s : System Controller) : Prop where
  ordered : returned ls <+: makes (first ++ arrivals ls)
  conserved : returned ls ++ queue s.machine.mem ++ makes s.machine.io.dev.out =
    makes (first ++ arrivals ls)
  head : (Bda.head s.machine.mem).toNat = (stored ls).length % 128
  tail : (Bda.tail s.machine.mem).toNat = (returned ls).length % 128
  behind : (returned ls).length ≤ (stored ls).length

/-- The environment: IRQ1 is raised by a byte in the controller, and the readers
are INT 16h calls. -/
def Raised (s : System Controller) : Label U8 → Prop
  | .irq _ => s.machine.io.dev.out ≠ []
  | .call _ => False
  | _ => True

/-- The condition of `reads_in_order`: a make code finds a slot in front of the
ring indices, the make code of a lock key has no make code waiting behind it,
and a reader takes from a queue that holds a code. -/
def Orderly (s : System Controller) (l : Label U8) : Prop :=
  SlotBelow 98 s.machine.mem l ∧
    match l with
    | .irq b | .poll b => isMake b && isLockKey b → makes s.machine.io.dev.out.tail = []
    | .take _ => queued s.machine.mem
    | _ => True

/-! ### The controller's side of a step -/

section Device

variable {s s' : Machine Controller}

theorem makes_eq_nil {p : Ports Controller} : makes p.dev.out = [] ↔ Quiet p := by
  simp [makes, Quiet, List.filter_eq_nil_iff]

/-- `keyboard_available` takes no byte. -/
theorem available_out {available : Bool} (h : keyboardAvailable.Returns s available s') :
    s'.io.dev.out = s.io.dev.out := by
  simp only [keyboardAvailable, returns_bind, returns_gets, returns_ite, returns_pure,
    returns_onPorts, returns_inb] at h
  obtain ⟨q, s₁, ⟨-, rfl⟩, h⟩ := h
  split at h
  · rw [h.2]
  · obtain ⟨_, _, ⟨io, ⟨-, rfl⟩, rfl⟩, -, rfl⟩ := h
    rfl

/-- With an empty queue, `keyboard_available` says whether a byte waits. -/
theorem available_polled (hq : ¬ queued s.mem) :
    ∃ io, keyboardAvailable.Returns s (decide (s.io.dev.out ≠ [])) ⟨io, s.mem⟩ ∧
      io.dev = s.io.dev := by
  have hstatus : Bus.inb keyboardStatusPort s.io.dev =
      (if s.io.dev.out = [] then commandData else 0x09, s.io.dev) := rfl
  have hempty : (gets fun s : Machine Controller => decide (queued s.mem)).Returns s false s :=
    returns_gets.mpr ⟨(decide_eq_false hq).symm, rfl⟩
  refine ⟨_, hempty.bind (.bind (returns_onPorts.mpr ⟨_, returns_inb.mpr ⟨rfl, rfl⟩, rfl⟩)
    (returns_pure.mpr ⟨?_, rfl⟩)), rfl⟩
  rw [hstatus]
  by_cases hout : s.io.dev.out = [] <;> simp [hout, commandData, outputBufferFull]

/-- So what it sees is a waiting byte. -/
theorem available_ready (h : keyboardAvailable.Returns s true s') (hq : ¬ queued s.mem) :
    s.io.dev.out ≠ [] := by
  obtain ⟨io, hpolled, -⟩ := available_polled hq
  exact of_decide_eq_true (h.functional hpolled).1.symm

/-- A keystroke takes the oldest waiting byte. The make codes behind it stay,
provided an LED transaction finds none. -/
theorem keystroke_out (h : keyboardProcessKeystroke.Returns s b s') (hout : s.io.dev.out ≠ [])
    (hlock : isMake b && isLockKey b → makes s.io.dev.out.tail = []) :
    makes s.io.dev.out = makes [b] ++ makes s'.io.dev.out := by
  obtain ⟨io₁, io₂, hread, hleds, rfl⟩ := returns_processKeystroke.mp h
  obtain ⟨rfl, rfl⟩ := (returns_readData hout).mp hread
  have hrest : makes io₂.dev.out = makes s.io.dev.out.tail := by
    rw [ledsFor, returns_when] at hleds
    split at hleds
    · have hquiet := hlock ‹_›
      rw [hquiet]
      exact makes_eq_nil.mpr (updateLeds_quiet _ _ _ hleds (makes_eq_nil.mp hquiet))
    · rw [hleds]; rfl
  rw [hrest, ← makes_append]
  obtain ⟨b, rest, hcons⟩ := List.exists_cons_of_ne_nil hout
  rw [hcons]
  rfl

end Device

/-! ### Runs -/

/-- The invariant: no code was lost, and a code taken is still the oldest one. -/
structure Delivery (first : List U8) (ls : List (Label U8)) (s : System Controller) : Prop where
  indices : IndicesBelow 98 ls s.machine.mem
  behind : (returned ls).length ≤ (stored ls).length
  conserved : returned ls ++ queue s.machine.mem ++ makes s.machine.io.dev.out =
    makes (first ++ arrivals ls)
  taken : ∀ itr c, s.reader = .advance itr c → ∃ rest, queue s.machine.mem = c :: rest

namespace Delivery

variable {first : List U8} {ls : List (Label U8)} {s t : System Controller} {l : Label U8}

theorem unwrapped (h : Delivery first ls s) : Unwrapped s.machine.mem := by
  have hbehind := h.behind
  have hle := h.indices.le
  constructor
  · rw [h.indices.head, h.indices.tail]; omega
  · rw [h.indices.head]; exact hle

theorem init {m₀ : Machine Controller} (h : AfterInit m₀.mem) :
    Delivery m₀.io.dev.out [] ⟨m₀, .idle⟩ where
  indices := .init h
  behind := Nat.le_refl 0
  conserved := by simp [returned, arrivals, queue, h.head_eq, h.tail_eq]
  taken := fun _ _ h => nomatch h

/-- A step that only looks. -/
theorem looked (h : Delivery first ls s) (hmem : t.machine.mem = s.machine.mem)
    (hout : t.machine.io.dev.out = s.machine.io.dev.out) (hindices : IndicesBelow 98 (ls ++ [l])
      t.machine.mem) (hstored : stored [l] = []) (hreturned : returned [l] = [])
    (harrived : arrivals [l] = [])
    (htaken : ∀ itr c, t.reader = .advance itr c → ∃ rest, queue s.machine.mem = c :: rest) :
    Delivery first (ls ++ [l]) t where
  indices := hindices
  behind := by
    rw [stored_append, returned_append, hstored, hreturned, List.append_nil, List.append_nil]
    exact h.behind
  conserved := by
    rw [hmem, hout, returned_append, hreturned, arrivals_append, harrived, List.append_nil,
      List.append_nil]
    exact h.conserved
  taken := by rw [hmem]; exact htaken

/-- A keystroke moves its code from the controller to the queue. -/
theorem keystroke (h : Delivery first ls s) {r : Reader} {m₁ m' : Machine Controller}
    (hmem : m₁.mem = s.machine.mem) (hout : m₁.io.dev.out = s.machine.io.dev.out)
    (hready : s.machine.io.dev.out ≠ []) (hkey : keyboardProcessKeystroke.Returns m₁ b m')
    (hslot : isMake b → (Bda.head s.machine.mem).toNat < 98)
    (hlock : isMake b && isLockKey b → makes s.machine.io.dev.out.tail = [])
    (hindices : IndicesBelow 98 (ls ++ [l]) m'.mem)
    (hreturned : returned [l] = []) (harrived : arrivals [l] = [])
    (htaken : ∀ itr c, r = .advance itr c → ∃ rest, queue s.machine.mem = c :: rest) :
    Delivery first (ls ++ [l]) ⟨m', r⟩ := by
  have hmem' : m'.mem = keystrokeMem b s.machine.mem := by
    obtain ⟨_, _, _, _, rfl⟩ := returns_processKeystroke.mp hkey
    rw [hmem]
  have hqueue := queue_keystrokeMem h.unwrapped hslot
  rw [← hmem', ← makes_singleton] at hqueue
  refine ⟨hindices, ?_, ?_, ?_⟩
  · have hbehind := h.behind
    rw [stored_append, returned_append, hreturned, List.append_nil, List.length_append]
    omega
  · have hmoved := keystroke_out hkey (hout ▸ hready) (hout ▸ hlock)
    rw [returned_append, hreturned, arrivals_append, harrived, List.append_nil, List.append_nil,
      ← h.conserved, ← hout, hmoved, hqueue]
    simp only [List.append_assoc]
  · intro itr c hr
    obtain ⟨rest, hrest⟩ := htaken itr c hr
    exact ⟨rest ++ makes [b], by rw [hqueue, hrest]; rfl⟩

/-- The tail advances past the code taken. -/
theorem pop {m : Machine Controller} {itr : Bool} {c : U8}
    (h : Delivery first ls ⟨m, .advance itr c⟩)
    (hindices : IndicesBelow 98 (ls ++ [.pop c]) (advanceTail m.mem)) :
    Delivery first (ls ++ [.pop c]) ⟨{ m with mem := advanceTail m.mem }, .idle⟩ := by
  obtain ⟨rest, hrest⟩ := h.taken itr c rfl
  have hqueued : queued m.mem := by
    intro he
    rw [queue, he, RingBuffer.contents_self] at hrest
    cases hrest
  have hpop := queue_advanceTail h.unwrapped hqueued
  have hc : oldest m.mem = c := by
    rw [hrest] at hpop
    exact (List.cons.inj hpop).1.symm
  refine ⟨hindices, ?_, ?_, fun _ _ h => nomatch h⟩
  · have hbehind := h.behind
    have hle := h.indices.le
    have hne : (stored ls).length ≠ (returned ls).length % 128 := by
      rw [← h.indices.head, ← h.indices.tail]
      exact fun e => hqueued (BitVec.eq_of_toNat_eq e)
    rw [stored_append, returned_append, List.length_append, List.length_append]
    show _ + 1 ≤ _ + 0
    omega
  · have hconserved := h.conserved
    rw [hpop, hc] at hconserved
    simpa [returned_append, arrivals_append, returned, arrivals] using hconserved

theorem step (h : Delivery first ls s) (hraised : Raised s l) (horderly : Orderly s l)
    (hstep : Step Controller.arrive s l t) : Delivery first (ls ++ [l]) t := by
  obtain ⟨hslot, hok⟩ := horderly
  have hindices : IndicesBelow 98 (ls ++ [l]) t.machine.mem := by
    rw [step_mem hstep]
    exact h.indices.step (Nat.le_refl 98) hslot
  cases hstep with
  | @env m r b d harrive =>
      subst harrive
      refine ⟨hindices, ?_, ?_, h.taken⟩
      · simpa [stored_append, returned_append, stored, returned] using h.behind
      · rw [returned_append, arrivals_append, ← List.append_assoc, makes_append (k := arrivals _),
          ← h.conserved]
        simp [returned, arrivals]
  | irq _ hkey =>
      exact h.keystroke rfl rfl hraised hkey hslot hok hindices rfl rfl h.taken
  | read => exact h.looked rfl rfl hindices rfl rfl rfl (by intro _ _ hr; cases hr)
  | call => exact absurd hraised id
  | check ha =>
      refine h.looked (available_mem ha) (available_out ha) hindices rfl rfl rfl ?_
      intro itr c hr
      split at hr <;> cases hr
  | checkHlt ha =>
      refine h.looked (available_mem ha) (available_out ha) hindices rfl rfl rfl ?_
      intro itr c hr
      split at hr <;> cases hr
  | load =>
      refine h.looked rfl rfl hindices rfl rfl rfl ?_
      rintro _ _ ⟨⟩
      exact ⟨_, queue_advanceTail h.unwrapped hok⟩
  | taken =>
      refine h.looked rfl rfl hindices rfl rfl rfl ?_
      rintro _ _ ⟨⟩
      exact ⟨_, queue_advanceTail h.unwrapped hok⟩
  | poll hempty ha hkey =>
      exact h.keystroke (available_mem ha) (available_out ha) (available_ready ha hempty) hkey
        hslot hok hindices rfl rfl (by intro _ _ hr; cases hr)
  | nothing hempty _ => exact absurd hok hempty
  | pop => exact h.pop hindices

end Delivery

/-- In an orderly run the reads return the make codes sent, oldest first. -/
theorem reads_in_order {m₀ : Machine Controller} {ls : List (Label U8)} {s : System Controller}
    (init : AfterInit m₀.mem)
    (run : Run (Guarded Orderly (Guarded Raised (Step Controller.arrive))) ⟨m₀, .idle⟩ ls s) :
    ReadsInOrder m₀.io.dev.out ls s := by
  have h := run.invariant (I := Delivery m₀.io.dev.out) (.init init)
    fun _ _ _ _ h ⟨horderly, hraised, hstep⟩ => h.step hraised horderly hstep
  have hle := h.indices.le
  have ordered : returned ls <+: makes (m₀.io.dev.out ++ arrivals ls) :=
    ⟨queue s.machine.mem ++ makes s.machine.io.dev.out, by rw [← List.append_assoc, h.conserved]⟩
  exact ⟨ordered, h.conserved, by rw [h.indices.head]; omega, h.indices.tail, h.behind⟩

/-- A letter and the insert key raise IRQ1, and the letter is read. -/
theorem reads_in_order_typed :
    ∃ s, Run (Guarded Orderly (Guarded Raised (Step Controller.arrive)))
        ⟨⟨Controller.holding typed, clearQueue .zeros⟩, .idle⟩ typedLabels s ∧
      ReadsInOrder typed typedLabels s := by
  obtain ⟨q, -, run⟩ := typed_run []
  have guarded : Run (Guarded Orderly (Guarded Raised (Step Controller.arrive)))
      ⟨⟨Controller.holding typed, clearQueue .zeros⟩, .idle⟩ typedLabels
      ⟨⟨q, advanceTail typedMem⟩, .idle⟩ := by
    refine run.mono fun s l t ⟨hplain, hstep⟩ => ⟨?_, ?_, hstep⟩
    · cases l with
      | irq b =>
          obtain ⟨hhead, hlock, -⟩ := hplain
          exact ⟨fun _ => Nat.lt_trans hhead (by decide), fun h => by simp [hlock] at h⟩
      | take c => exact ⟨trivial, hplain⟩
      | poll b => exact absurd hplain id
      | _ => exact ⟨trivial, trivial⟩
    · cases l with
      | irq b => exact hplain.2.2
      | call itr => exact absurd hplain id
      | _ => trivial
  exact ⟨_, guarded, reads_in_order ⟨_, rfl⟩ guarded⟩

/-- At every point of the run at most 31 make codes are unread. -/
def FewUnread (first : List U8) (ls : List (Label U8)) : Prop :=
  ∀ ks, ks <+: ls → (makes (first ++ arrivals ks)).length ≤ (returned ks).length + 31

/-- A break code waits, and a read with interrupts disabled returns 0. -/
theorem break_read {p : Ports Controller} (hp : p.dev.out = [0x9E]) (hq : ¬ queued m)
    (hq' : ¬ queued (keystrokeMem 0x9E m)) :
    ∃ s, Run (Guarded Raised (Step Controller.arrive)) ⟨⟨p, m⟩, .idle⟩
      [.read false, .check, .poll 0x9E, .take 0, .pop 0] s := by
  obtain ⟨io₁, hcheck, hio₁⟩ := available_polled (s := ⟨p, m⟩) hq
  have hout₁ : io₁.dev.out = [0x9E] := by rw [hio₁]; exact hp
  obtain ⟨io₂, hpoll, hio₂⟩ := available_polled (s := ⟨io₁, m⟩) hq
  have hout₂ : io₂.dev.out = [0x9E] := by rw [hio₂]; exact hout₁
  rw [decide_eq_true (by rw [hp]; decide)] at hcheck
  rw [decide_eq_true (by rw [hout₁]; decide)] at hpoll
  have hkey := processKeystroke_ready (m := m) hout₂ rfl
  obtain ⟨io₃, hnone, -⟩ := available_polled (s := ⟨takeByte io₂, keystrokeMem 0x9E m⟩) hq'
  rw [decide_eq_false (by simp [takeByte, hout₂])] at hnone
  have read : Guarded Raised (Step Controller.arrive)
      ⟨⟨p, m⟩, .idle⟩ (.read false) ⟨⟨p, m⟩, .wait false⟩ := ⟨trivial, .read⟩
  have check : Guarded Raised (Step Controller.arrive)
      ⟨⟨p, m⟩, .wait false⟩ .check ⟨⟨io₁, m⟩, .get false⟩ := ⟨trivial, .check hcheck⟩
  have poll : Guarded Raised (Step Controller.arrive)
      ⟨⟨io₁, m⟩, .get false⟩ (.poll 0x9E) ⟨⟨takeByte io₂, keystrokeMem 0x9E m⟩, .get false⟩ :=
    ⟨trivial, .poll hq hpoll hkey⟩
  have take : Guarded Raised (Step Controller.arrive)
      ⟨⟨takeByte io₂, keystrokeMem 0x9E m⟩, .get false⟩ (.take 0)
      ⟨⟨io₃, keystrokeMem 0x9E m⟩, .advance false 0⟩ := ⟨trivial, .nothing hq' hnone⟩
  have pop : Guarded Raised (Step Controller.arrive)
      ⟨⟨io₃, keystrokeMem 0x9E m⟩, .advance false 0⟩ (.pop 0)
      ⟨⟨io₃, advanceTail (keystrokeMem 0x9E m)⟩, .idle⟩ := ⟨trivial, .pop⟩
  exact ⟨_, ((((Run.nil.snoc read).snoc check).snoc poll).snoc take).snoc pop⟩

/-- So without the condition a read returns a code that was never sent. -/
theorem reads_fail :
    ¬ ∀ (m₀ : Machine Controller) (ls : List (Label U8)) (s : System Controller),
      AfterInit m₀.mem → Run (Guarded Raised (Step Controller.arrive)) ⟨m₀, .idle⟩ ls s →
        FewUnread m₀.io.dev.out ls → ReadsInOrder m₀.io.dev.out ls s := by
  intro h
  obtain ⟨s, run⟩ := break_read (p := Controller.holding [0x9E]) (m := clearQueue .zeros) rfl
    (by decide) (by decide)
  have few : FewUnread [0x9E] [.read false, .check, .poll 0x9E, .take 0, .pop 0] := by
    rintro ks ⟨rest, hks⟩
    have harrived := congrArg arrivals hks
    rw [arrivals_append] at harrived
    rw [(List.append_eq_nil_iff.mp harrived).1]
    exact Nat.zero_le _
  have hordered := (h ⟨Controller.holding [0x9E], clearQueue .zeros⟩ _ _ ⟨_, rfl⟩ run few).ordered
  exact absurd hordered (by decide)

end MyBios.Keyboard
