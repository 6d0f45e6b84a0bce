import MyBios.Keyboard.Fifo

/-!
A make code for a queue that is full.

The ring holds at most 127 codes: its tail is then the index the head goes on to. The
driver stores and advances all the same, so the head meets the tail and the queue reads as
empty. The ring also runs over its own indices, the slots 98 to 101, where a store moves
the head or the tail instead.

* `toNat_head_enqueue`, `toNat_tail_enqueue`: the indices after a store, at every slot.
* `enqueueSafe_iff`: the head stays off the tail exactly under `Apart`; a full queue
  stays readable only if the head is at 98 and the store leaves it there.
* `enqueueSafe_fails`: a burst that nobody reads fills the ring, and the next code
  empties it.
-/

namespace MyBios.Keyboard

open Prog Lts

variable {m m' : ByteMem} {b : U8} {n i : Nat}

/-! ### What the queue reads as -/

/-- The codes that `n` calls of `keyboard_pop_scancode` return while the queue does not
read as empty. -/
def readOut : Nat → ByteMem → List U8
  | 0, _ => []
  | n + 1, m => if queued m then oldest m :: readOut n (advanceTail m) else []

/-- The producer's next index is the tail. -/
def Full (m : ByteMem) : Prop := Bda.tail m = (Bda.head m + 1) % keyboardBufferSize

/-- Storing a make code turned memory `m` into `m'`: the head did not meet the tail, and
what a full queue held can still be read, in order. -/
structure EnqueueSafe (m m' : ByteMem) : Prop where
  apart : Bda.head m' ≠ Bda.tail m'
  kept : Full m → ∀ n, readOut n m <+: readOut n m'

theorem queued_iff : queued m ↔ (Bda.head m).toNat ≠ (Bda.tail m).toNat := by
  rw [queued, ne_eq, ne_eq, BitVec.toNat_inj]

/-- As many codes are read as there are between tail and head. -/
theorem length_readOut (hh : (Bda.head m).toNat < 128) (ht : (Bda.tail m).toNat < 128) :
    (readOut n m).length =
      min n (RingBuffer.count 128 (Bda.tail m).toNat (Bda.head m).toNat) := by
  induction n generalizing m with
  | zero => simp [readOut]
  | succ n ih =>
      have hnext := tail_advanceTail (m := m)
      rw [readOut]
      split
      · rename_i hq
        rw [List.length_cons, ih (by simpa using hh) (by omega), hnext, head_advanceTail,
          RingBuffer.count_pop ht hh (queued_iff.mp hq)]
        omega
      · rename_i hq
        have heq := Decidable.not_not.mp (mt queued_iff.mpr hq)
        rw [heq, RingBuffer.count_self]
        simp

/-- The code read after `i` others. -/
theorem getElem?_readOut (h : i < (readOut n m).length) :
    (readOut n m)[i]? = some (oldest (advanceTail^[i] m)) := by
  induction n generalizing m i with
  | zero => simp [readOut] at h
  | succ n ih =>
      rw [readOut] at h ⊢
      split at h
      · rename_i hq
        rw [if_pos hq]
        cases i with
        | zero => rfl
        | succ i => exact ih (Nat.lt_of_succ_lt_succ h)
      · simp at h

theorem kept_at (h : readOut n m <+: readOut n m') (hi : i < (readOut n m).length) :
    oldest (advanceTail^[i] m) = oldest (advanceTail^[i] m') := by
  have hget := getElem?_readOut (Nat.lt_of_lt_of_le hi h.length_le)
  obtain ⟨rest, happend⟩ := h
  rw [← happend, List.getElem?_append_left hi, getElem?_readOut hi] at hget
  exact Option.some.inj hget

/-- The tail after `i` more reads, once it is inside the ring. -/
theorem tail_iterate (hi : 0 < i) :
    (Bda.tail (advanceTail^[i] m)).toNat = ((Bda.tail m).toNat + i) % 128 := by
  induction i with
  | zero => omega
  | succ i ih =>
      rw [Function.iterate_succ_apply', tail_advanceTail]
      cases i with
      | zero => rfl
      | succ i =>
          rw [ih (Nat.succ_pos i)]
          omega

theorem slot_iterate (hi : i < 100) {k : Nat} : slot (advanceTail^[k] m) i = slot m i := by
  induction k with
  | zero => rfl
  | succ k ih => rw [Function.iterate_succ_apply', slot_advanceTail hi, ih]

/-- Below the tail's own bytes, the code read is the one in its slot. -/
theorem oldest_iterate {k : Nat} (hi : 0 < i) (htail : ((Bda.tail m).toNat + i) % 128 = k)
    (hk : k < 100) : oldest (advanceTail^[i] m) = slot m k := by
  rw [← slot_iterate (m := m) (k := i) hk, ← htail, ← tail_iterate hi]
  rfl

/-- Slots 98 and 99 are the head. -/
theorem toNat_head : (Bda.head m).toNat = (slot m 99).toNat * 256 + (slot m 98).toNat :=
  ByteMem.toNat_read16

theorem toNat_slot_98 : (slot m 98).toNat = (Bda.head m).toNat % 256 := by
  have hlow := (slot m 98).isLt
  rw [toNat_head]
  omega

theorem toNat_slot_99 : (slot m 99).toNat = (Bda.head m).toNat / 256 := by
  have hlow := (slot m 98).isLt
  rw [toNat_head]
  omega

/-- Slots 100 and 101 are the tail. -/
theorem toNat_tail : (Bda.tail m).toNat = (slot m 101).toNat * 256 + (slot m 100).toNat :=
  ByteMem.toNat_read16

/-! ### The indices after a store -/

theorem slot_store {v : U8} {w : U16} :
    slot (Bda.storeKeyboardBuffer w v m) i = if i = w.toNat then v else slot m i := by
  unfold slot Bda.storeKeyboardBuffer
  split
  · rename_i h
    rw [h, ByteMem.write8_same]
  · exact ByteMem.write8_other (by omega)

/-- The head steps on, but from slot 98, where the store has replaced it. -/
theorem toNat_head_enqueue :
    (Bda.head (enqueue b m)).toNat =
      (if (Bda.head m).toNat = 98 then b.toNat + 1 else (Bda.head m).toNat + 1) % 128 := by
  have hbytes := toNat_head (m := m)
  have hlow := (slot m 98).isLt
  rw [enqueue, Bda.head_setHead, toNat_nextIndex, toNat_head, slot_store, slot_store]
  split <;> split <;> split <;> omega

/-- The tail stays, but when the store hits one of its bytes. -/
theorem toNat_tail_enqueue :
    (Bda.tail (enqueue b m)).toNat =
      if (Bda.head m).toNat = 100 then (Bda.tail m).toNat / 256 * 256 + b.toNat
      else if (Bda.head m).toNat = 101 then b.toNat * 256 + (Bda.tail m).toNat % 256
      else (Bda.tail m).toNat := by
  have hbytes := toNat_tail (m := m)
  have hlow := (slot m 100).isLt
  rw [enqueue, Bda.tail_setHead, toNat_tail, slot_store, slot_store]
  split_ifs <;> omega

/-- No step takes the head out of the ring. -/
theorem head_run {δ ε : Type} [Bus δ] {env : δ → ε → δ → Prop} {m₀ : Machine δ}
    {ls : List (Label ε)} {s : System δ} (init : AfterInit m₀.mem)
    (run : Run (Step env) ⟨m₀, .idle⟩ ls s) : (Bda.head s.machine.mem).toNat < 128 := by
  have hkey : ∀ (b : U8) (m : ByteMem), (Bda.head m).toNat < 128 →
      (Bda.head (keystrokeMem b m)).toNat < 128 := by
    intro b m hh
    unfold keystrokeMem
    split
    · rw [toNat_head_enqueue]
      exact Nat.mod_lt _ (by decide)
    · simpa using hh
  apply run.invariant (I := fun _ s => (Bda.head s.machine.mem).toNat < 128)
  · rw [init.head_eq]
    decide
  · intro ls s l t hh hstep
    rw [step_mem hstep]
    cases l with
    | irq b => exact hkey b _ hh
    | poll b => exact hkey b _ hh
    | pop c => rwa [labelMem, head_advanceTail]
    | _ => exact hh

/-! ### When a store is safe -/

/-- The head that the store leaves is not the tail that it leaves. -/
structure Apart (b : U8) (m : ByteMem) : Prop where
  /-- At most slots the head steps on and the tail stays. -/
  next : (Bda.head m).toNat ≠ 98 → (Bda.head m).toNat ≠ 100 → (Bda.head m).toNat ≠ 101 →
    ((Bda.head m).toNat + 1) % 128 ≠ (Bda.tail m).toNat
  /-- At 98 the code becomes the head, which then steps on. -/
  head : (Bda.head m).toNat = 98 → (b.toNat + 1) % 128 ≠ (Bda.tail m).toNat
  /-- At 100 and 101 it becomes a byte of the tail. -/
  low : (Bda.head m).toNat = 100 → ¬ ((Bda.tail m).toNat < 256 ∧ b.toNat = 101)
  high : (Bda.head m).toNat = 101 → ¬ (b.toNat = 0 ∧ (Bda.tail m).toNat % 256 = 102)

/-- The one code that leaves the head, and with it all of memory, where it is. -/
def Standstill (b : U8) (m : ByteMem) : Prop := (Bda.head m).toNat = 98 ∧ b = 0x61

theorem toNat_isMake (hb : isMake b) : b.toNat < 128 := by
  revert b
  decide

theorem keystrokeMem_make (hb : isMake b) : keystrokeMem b m = enqueue b (updateFlags b m) :=
  if_pos hb

theorem toNat_head_make (hb : isMake b) :
    (Bda.head (keystrokeMem b m)).toNat =
      (if (Bda.head m).toNat = 98 then b.toNat + 1 else (Bda.head m).toNat + 1) % 128 := by
  rw [keystrokeMem_make hb, toNat_head_enqueue, head_updateFlags]

theorem toNat_tail_make (hb : isMake b) :
    (Bda.tail (keystrokeMem b m)).toNat =
      if (Bda.head m).toNat = 100 then (Bda.tail m).toNat / 256 * 256 + b.toNat
      else if (Bda.head m).toNat = 101 then b.toNat * 256 + (Bda.tail m).toNat % 256
      else (Bda.tail m).toNat := by
  rw [keystrokeMem_make hb, toNat_tail_enqueue, head_updateFlags, tail_updateFlags]

theorem apart_iff (hb : isMake b) :
    Bda.head (keystrokeMem b m) ≠ Bda.tail (keystrokeMem b m) ↔ Apart b m := by
  have hlt := b.isLt
  rw [ne_eq, ← BitVec.toNat_inj, toNat_head_make hb, toNat_tail_make hb]
  constructor
  · intro hne
    constructor
    · intro h98 h100 h101
      rwa [if_neg h98, if_neg h100, if_neg h101] at hne
    · intro h98
      rwa [if_pos h98, if_neg (by omega), if_neg (by omega)] at hne
    · intro h100
      rw [if_neg (by omega), if_pos h100] at hne
      omega
    · intro h101
      rw [if_neg (by omega), if_neg (by omega), if_pos h101] at hne
      omega
  · rintro ⟨hnext, hhead, hlow, hhigh⟩
    by_cases h98 : (Bda.head m).toNat = 98
    · rw [if_pos h98, if_neg (by omega), if_neg (by omega)]
      exact hhead h98
    · rw [if_neg h98]
      by_cases h100 : (Bda.head m).toNat = 100
      · have hbyte := hlow h100
        rw [if_pos h100]
        omega
      · rw [if_neg h100]
        by_cases h101 : (Bda.head m).toNat = 101
        · have hbyte := hhigh h101
          rw [if_pos h101]
          omega
        · rw [if_neg h101]
          exact hnext h98 h100 h101

theorem full_iff : Full m ↔ (Bda.tail m).toNat = ((Bda.head m).toNat + 1) % 128 := by
  rw [Full, ← BitVec.toNat_inj, toNat_nextIndex]

/-- At 98 the code `0x61` replaces the head by 97, and the head steps back to 98. -/
theorem enqueue_standstill (h : (Bda.head m).toNat = 98) : enqueue 0x61 m = m := by
  have hhead : (Bda.head (enqueue 0x61 m)).toNat = (Bda.head m).toNat := by
    rw [toNat_head_enqueue, if_pos h, h]
    rfl
  have hlow : slot (enqueue 0x61 m) 98 = slot m 98 :=
    BitVec.eq_of_toNat_eq (by rw [toNat_slot_98, toNat_slot_98, hhead])
  have hhigh : slot (enqueue 0x61 m) 99 = slot m 99 :=
    BitVec.eq_of_toNat_eq (by rw [toNat_slot_99, toNat_slot_99, hhead])
  funext a
  by_cases ha : a = 0x480 ∨ a = 0x481
  · rcases ha with rfl | rfl
    · exact hlow
    · exact hhigh
  · rw [enqueue, Bda.setHead, ByteMem.write16_other (by rw [Bda.addr_head]; omega),
      Bda.storeKeyboardBuffer, ByteMem.write8_other (by rw [Bda.addr_buffer]; omega)]

theorem keystrokeMem_standstill (h : (Bda.head m).toNat = 98) : keystrokeMem 0x61 m = m := by
  have hflags : updateFlags 0x61 m = m := by
    funext a
    simp only [updateFlags, Bda.setFlags, ByteMem.write8]
    split
    · subst a; rfl
    · split
      · subst a; rfl
      · rfl
  rw [keystrokeMem_make rfl, hflags, enqueue_standstill h]

/-- 127 codes can be read from a full queue. -/
theorem length_full (hh : (Bda.head m).toNat < 128) (hfull : Full m) (hn : n ≤ 127) :
    (readOut n m).length = n := by
  have htail := full_iff.mp hfull
  rw [length_readOut hh (by omega), RingBuffer.count_eq (by omega) hh]
  split <;> omega

/-- A full queue keeps its length only if the store leaves 127 codes. -/
theorem count_kept (hh : (Bda.head m).toNat < 128) (hfull : Full m)
    (hh' : (Bda.head m').toNat < 128) (ht' : (Bda.tail m').toNat < 128)
    (hkept : ∀ n, readOut n m <+: readOut n m') :
    ((Bda.head m').toNat + 1) % 128 = (Bda.tail m').toNat := by
  have hle := (hkept 127).length_le
  rw [length_full hh hfull (Nat.le_refl 127), length_readOut hh' ht',
    RingBuffer.count_eq ht' hh'] at hle
  split at hle <;> omega

/-- With the head at 98, the head must come to rest there. -/
theorem standstill_of_kept (hb : isMake b) (hfull : Full m)
    (hkept : ∀ n, readOut n m <+: readOut n (keystrokeMem b m)) (h : (Bda.head m).toNat = 98) :
    Standstill b m := by
  have hlt := b.isLt
  have htail := full_iff.mp hfull
  have hhead' := toNat_head_make (m := m) hb
  have htail' := toNat_tail_make (m := m) hb
  rw [if_pos h] at hhead'
  rw [if_neg (by omega), if_neg (by omega)] at htail'
  have hcount := count_kept (by omega) hfull (by omega) (by omega) hkept
  have hcode : b.toNat < 128 := toNat_isMake hb
  exact ⟨h, BitVec.eq_of_toNat_eq (by show b.toNat = 97; omega)⟩

/-- A full queue stays readable only if the slots that its codes lie in keep them, where
the tail's own bytes are not in between. -/
theorem slot_kept {k j : Nat} (hh : (Bda.head m).toNat < 128) (hfull : Full m)
    (hkept : ∀ n, readOut n m <+: readOut n m') (hi : 0 < i) (hi' : i < 127)
    (hslot : ((Bda.tail m).toNat + i) % 128 = k) (hslot' : ((Bda.tail m').toNat + i) % 128 = j)
    (hk : k < 100) (hj : j < 100) : slot m k = slot m' j := by
  have hread := kept_at (hkept 127) (by rwa [length_full hh hfull (Nat.le_refl 127)])
  rwa [oldest_iterate hi hslot hk, oldest_iterate hi hslot' hj] at hread

/-- With the head at 100, the tail would have to move on, and every code with it. -/
theorem not_kept_100 (hb : isMake b) (hfull : Full m)
    (hkept : ∀ n, readOut n m <+: readOut n (keystrokeMem b m)) :
    (Bda.head m).toNat ≠ 100 := by
  intro h
  have htail := full_iff.mp hfull
  have hhead' := toNat_head_make (m := m) hb
  have htail' := toNat_tail_make (m := m) hb
  rw [if_neg (by omega)] at hhead'
  rw [if_pos h] at htail'
  have hcode : b.toNat < 128 := toNat_isMake hb
  have hcount := count_kept (by omega) hfull (by omega) (by omega) hkept
  -- the 126th code was the low byte of the head, and becomes the high one
  have hread : slot m 98 = slot (keystrokeMem b m) 99 :=
    slot_kept (i := 125) (by omega) hfull hkept (by decide) (by decide) (by omega) (by omega)
      (by decide) (by decide)
  have hbytes := congrArg BitVec.toNat hread
  rw [toNat_slot_98, toNat_slot_99] at hbytes
  omega

/-- With the head at 101, the low byte of the head is one of the codes. -/
theorem not_kept_101 (hb : isMake b) (hfull : Full m)
    (hkept : ∀ n, readOut n m <+: readOut n (keystrokeMem b m)) :
    (Bda.head m).toNat ≠ 101 := by
  intro h
  have htail := full_iff.mp hfull
  have hhead' := toNat_head_make (m := m) hb
  have htail' := toNat_tail_make (m := m) hb
  rw [if_neg (by omega)] at hhead'
  rw [if_neg (by omega), if_pos h] at htail'
  have hread : slot m 98 = slot (keystrokeMem b m) 98 :=
    slot_kept (i := 124) (by omega) hfull hkept (by decide) (by decide) (by omega) (by omega)
      (by decide) (by decide)
  have hbytes := congrArg BitVec.toNat hread
  rw [toNat_slot_98, toNat_slot_98] at hbytes
  omega

/-- A full queue that stays readable is left alone. -/
theorem full_kept_iff (hb : isMake b) (hh : (Bda.head m).toNat < 128) (hfull : Full m)
    (hapart : Apart b m) :
    (∀ n, readOut n m <+: readOut n (keystrokeMem b m)) ↔ Standstill b m := by
  have htail := full_iff.mp hfull
  constructor
  · intro hkept
    -- off the indices' own slots, the head of a full queue meets the tail
    have hindex : (Bda.head m).toNat = 98 ∨ (Bda.head m).toNat = 100 ∨
        (Bda.head m).toNat = 101 := by
      have hnext := hapart.next
      omega
    rcases hindex with h | h | h
    · exact standstill_of_kept hb hfull hkept h
    · exact absurd h (not_kept_100 hb hfull hkept)
    · exact absurd h (not_kept_101 hb hfull hkept)
  · rintro ⟨h98, rfl⟩ n
    have hsame := congrArg (readOut n) (keystrokeMem_standstill h98)
    exact ⟨[], by rw [hsame, List.append_nil]⟩

/-! ### Runs -/

variable {δ ε : Type} [Bus δ] {env : δ → ε → δ → Prop} {m₀ : Machine δ} {ls : List (Label ε)}
  {s : System δ}

/-- In every queue that a run reaches, a make code is stored safely exactly if it leaves
the indices apart and, where the queue is full, at a standstill. -/
theorem enqueueSafe_iff {k : Machine δ} (init : AfterInit m₀.mem)
    (run : Run (Step env) ⟨m₀, .idle⟩ ls s) (hb : isMake b)
    (h : keyboardProcessKeystroke.Returns s.machine b k) :
    EnqueueSafe s.machine.mem k.mem ↔
      Apart b s.machine.mem ∧ (Full s.machine.mem → Standstill b s.machine.mem) := by
  have hh := head_run init run
  obtain ⟨io₁, io₂, -, -, rfl⟩ := returns_processKeystroke.mp h
  constructor
  · intro safe
    have hapart := (apart_iff hb).mp safe.apart
    exact ⟨hapart, fun hfull => (full_kept_iff hb hh hfull hapart).mp (safe.kept hfull)⟩
  · rintro ⟨hapart, hstand⟩
    exact ⟨(apart_iff hb).mpr hapart,
      fun hfull => (full_kept_iff hb hh hfull hapart).mpr (hstand hfull)⟩

/-- Behind the two codes of the insert key, the next code is stored safely. -/
theorem enqueueSafe_iff_typed :
    EnqueueSafe (advanceTail typedMem) (keystrokeMem 0x30 (advanceTail typedMem)) := by
  obtain ⟨q, hout, run⟩ := typed_run [0x30]
  have plain := run.mono fun _ _ _ h => h.2
  have key : keyboardProcessKeystroke.Returns ⟨q, advanceTail typedMem⟩ 0x30
      ⟨takeByte q, keystrokeMem 0x30 (advanceTail typedMem)⟩ := processKeystroke_ready hout rfl
  have hhead : (Bda.head (advanceTail typedMem)).toNat = 3 := by decide
  have htail : (Bda.tail (advanceTail typedMem)).toNat = 1 := by decide
  have hapart : Apart 0x30 (advanceTail typedMem) := by
    constructor <;> omega
  refine (enqueueSafe_iff ⟨_, rfl⟩ plain rfl key).mpr ⟨hapart, fun hfull => ?_⟩
  rw [full_iff, hhead, htail] at hfull
  exact absurd hfull (by decide)

/-! ### A burst that nobody reads -/

/-- Away from the indices' own slots, a burst moves the head only. -/
theorem burst_indices {c : U8} (hc : isMake c) :
    ∀ n, (Bda.head m).toNat + n ≤ 98 ∨ 102 ≤ (Bda.head m).toNat ∧ (Bda.head m).toNat + n < 128 →
      (Bda.head (burst c n m)).toNat = (Bda.head m).toNat + n ∧
        (Bda.tail (burst c n m)).toNat = (Bda.tail m).toNat
  | 0, _ => ⟨rfl, rfl⟩
  | n + 1, hroom => by
      obtain ⟨hhead, htail⟩ := burst_indices hc n (by omega)
      have hstep : burst c (n + 1) m = keystrokeMem c (burst c n m) :=
        Function.iterate_succ_apply' _ _ _
      rw [hstep, toNat_head_make hc, toNat_tail_make hc, hhead, htail]
      constructor
      · rw [if_neg (by omega)]
        omega
      · rw [if_neg (by omega), if_neg (by omega)]

/-- Memory after 98 codes, one that throws the head to 102, and 25 more. -/
def filled : ByteMem := burst 0x1E 25 (keystrokeMem 0x65 (burst 0x1E 98 (clearQueue .zeros)))

/-- The indices of the filled ring. -/
theorem filled_indices : (Bda.head filled).toNat = 127 ∧ (Bda.tail filled).toNat = 0 := by
  have init : AfterInit (clearQueue .zeros) := ⟨_, rfl⟩
  have hhead₀ : (Bda.head (clearQueue .zeros)).toNat = 0 := by rw [init.head_eq]; rfl
  have htail₀ : (Bda.tail (clearQueue .zeros)).toNat = 0 := by rw [init.tail_eq]; rfl
  obtain ⟨hhead, htail⟩ := burst_indices (m := clearQueue .zeros) (c := 0x1E) rfl 98
    (.inl (by omega))
  have hthrown : (Bda.head (keystrokeMem 0x65 (burst 0x1E 98 (clearQueue .zeros)))).toNat = 102 :=
    by rw [toNat_head_make rfl, if_pos (by omega)]; rfl
  have hstayed : (Bda.tail (keystrokeMem 0x65 (burst 0x1E 98 (clearQueue .zeros)))).toNat = 0 := by
    rw [toNat_tail_make rfl, if_neg (by omega), if_neg (by omega)]
    omega
  obtain ⟨hhead', htail'⟩ := burst_indices
    (m := keystrokeMem 0x65 (burst 0x1E 98 (clearQueue .zeros))) (c := 0x1E) rfl 25
    (.inr (by omega))
  exact ⟨by rw [filled, hhead', hthrown], by rw [filled, htail', hstayed]⟩

/-- The bytes of the burst, and one more. -/
def burstBytes : List U8 := List.replicate 98 0x1E ++ 0x65 :: (List.replicate 25 0x1E ++ [0x1E])

/-- The burst reaches the filled ring, with one more code waiting. -/
theorem filled_reached :
    ∃ ls q, q.dev.out = [0x1E] ∧ Run (Step Controller.arrive)
      ⟨⟨Controller.holding burstBytes, clearQueue .zeros⟩, .idle⟩ ls ⟨⟨q, filled⟩, .idle⟩ := by
  obtain ⟨q₁, hq₁, run₁⟩ := burst_run (b := 0x1E) Controller.arrive rfl _ 98
    (Controller.holding burstBytes) (clearQueue .zeros) rfl
  have thrown : Step Controller.arrive ⟨⟨q₁, burst 0x1E 98 (clearQueue .zeros)⟩, .idle⟩
      (.irq 0x65) ⟨⟨takeByte q₁, keystrokeMem 0x65 (burst 0x1E 98 (clearQueue .zeros))⟩, .idle⟩ :=
    irq_ready hq₁ rfl
  obtain ⟨q₃, hq₃, run₃⟩ := burst_run (b := 0x1E) Controller.arrive rfl _ 25
    (takeByte q₁) (keystrokeMem 0x65 (burst 0x1E 98 (clearQueue .zeros))) (out_takeByte hq₁)
  exact ⟨_, q₃, hq₃, (run₁.snoc thrown).trans run₃⟩

/-- The 125th code. -/
theorem filled_code {q : Ports Controller} (hq : q.dev.out = [0x1E]) :
    keyboardProcessKeystroke.Returns ⟨q, filled⟩ 0x1E ⟨takeByte q, keystrokeMem 0x1E filled⟩ :=
  processKeystroke_ready hq rfl

theorem not_apart_filled : ¬ Apart 0x1E filled := by
  obtain ⟨hhead, htail⟩ := filled_indices
  intro hapart
  have hnext := hapart.next
  omega

/-- The ring is full, and the next code makes it read as empty. -/
theorem enqueueSafe_fails :
    ¬ ∀ (m₀ k : Machine Controller) (ls : List (Label U8)) (s : System Controller) (b : U8),
      AfterInit m₀.mem → Run (Step Controller.arrive) ⟨m₀, .idle⟩ ls s → isMake b →
        keyboardProcessKeystroke.Returns s.machine b k →
          EnqueueSafe s.machine.mem k.mem := by
  intro h
  have init : AfterInit (clearQueue .zeros) := ⟨_, rfl⟩
  obtain ⟨ls, q, hq, run⟩ := filled_reached
  have hmake : isMake 0x1E := rfl
  have safe : EnqueueSafe filled (keystrokeMem 0x1E filled) :=
    h ⟨_, clearQueue .zeros⟩ _ ls _ 0x1E init run hmake (filled_code hq)
  exact not_apart_filled ((apart_iff hmake).mp safe.apart)

end MyBios.Keyboard
