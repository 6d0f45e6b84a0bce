import MyBios.Chipset.I440fx

/-!
What `chipset_shadow_rom_from_src` does on the 440FX.

While it copies, the segments of the destination are write-only: stores go to RAM
and loads come from the bus. `copyRegion_copied` is about the loop,
`shadowSegments_total` about a run of segments, `shadow_total` about every call
that is `Valid`, with the recursive one for 128 KB.

`shadowsRight_iff`: the function does its job exactly when the call is not one at
`0xF0000` with another multiple of 64 KB than 64 KB itself, 0 included, and when
a range that is shadowed onto itself does not already show RAM that differs from
what is on the bus.
-/

namespace MyBios.I440fx

open Prog

variable {β : Type}

/-! ### What shadowing is -/

/-- `a` is in `[address, address + len)`. -/
def InRange (address len a : U32) : Prop :=
  address.toNat ≤ a.toNat ∧ a.toNat < address.toNat + len.toNat

/-- The range is the union of these segments. -/
def Covers (segments : Nat → Prop) (address len : U32) : Prop :=
  ∀ a, InRange address len a ↔ ∃ j, segments j ∧ segmentOf a = some j

/-- These segments are left in read-write mode, the RAM of the range holds these
bytes, and nothing else has changed. -/
structure Shadowed (segments : Nat → Prop) (address len : U32) (bytes : Nat → U8)
    (s t : I440fx β) : Prop where
  switched : ∀ j < 14, segments j → t.mode j = .readWrite
  others : ∀ j < 14, ¬ segments j → t.mode j = s.mode j
  copied : ∀ i < len.toNat, t.ram (address + BitVec.ofNat 32 i) = bytes i
  outside : ∀ a, ¬ InRange address len a → t.ram a = s.ram a
  bus : t.bus = s.bus

/-- The source range is the destination range, or the two are disjoint. -/
def SrcOk (address len src : U32) : Prop :=
  src = address ∨ ∀ i < len.toNat, ∀ j < len.toNat,
    src + BitVec.ofNat 32 i ≠ address + BitVec.ofNat 32 j

/-- After `true` the range, which is not empty, is made of whole segments and shadowed
with the bytes that the source showed; after `false` nothing has changed. -/
def ShadowsRight [BusSide β] (address len src : U32) (s : I440fx β) : Prop :=
  Total (chipsetShadowRomFromSrc address len src) s fun result t =>
    if result then
      0 < len.toNat ∧ ∃ segments, Covers segments address len ∧
        Shadowed segments address len (fun i => s.load (src + BitVec.ofNat 32 i)) s t
    else t.ram = s.ram ∧ t.bus = s.bus ∧ t.pci.space = s.pci.space

/-- The calls that shadow something. -/
def Valid (address len : U32) : Prop :=
  ((address = 0xC0000 ∨ address = 0xD0000 ∨ address = 0xE0000) ∧
    ∃ n, (n = 1 ∨ n = 2 ∨ n = 3 ∨ n = 4 ∨ n = 8) ∧ len.toNat = 0x4000 * n) ∨
  address = 0xF0000 ∧ len = 0x10000

/-! ### The loop -/

section Routing

variable {s t : I440fx β}

theorem mode_congr (hpci : t.pci = s.pci) (hchipset : t.chipset = s.chipset) (j : Nat) :
    t.mode j = s.mode j := by
  rw [mode, mode, hpci, hchipset]

theorem ramReads_congr {a : U32} (h : ∀ j, segmentOf a = some j → t.mode j = s.mode j) :
    t.ramReads a = s.ramReads a := by
  rw [ramReads, ramReads]
  cases hseg : segmentOf a with
  | none => rfl
  | some j => exact congrArg PamMode.reads (h j hseg)

theorem ramWrites_congr {a : U32} (h : ∀ j, segmentOf a = some j → t.mode j = s.mode j) :
    t.ramWrites a = s.ramWrites a := by
  rw [ramWrites, ramWrites]
  cases hseg : segmentOf a with
  | none => rfl
  | some j => exact congrArg PamMode.writes (h j hseg)

/-- A load depends on the mode of its segment, on its byte of RAM and on the bus. -/
theorem load_congr [BusSide β] {a : U32}
    (h : ∀ j, segmentOf a = some j → t.mode j = s.mode j)
    (hram : t.ram a = s.ram a) (hbus : t.bus = s.bus) : t.load a = s.load a := by
  rw [load, load, ramReads_congr h, hram, hbus]

end Routing

section Copy

variable {address src : U32} {n : Nat}

theorem offset_inj {i j : Nat} (hi : i < 2 ^ 32) (hj : j < 2 ^ 32)
    (h : address + BitVec.ofNat 32 i = address + BitVec.ofNat 32 j) : i = j := by
  have hij := congrArg BitVec.toNat (add_left_cancel h)
  rw [BitVec.toNat_ofNat, BitVec.toNat_ofNat, Nat.mod_eq_of_lt hi, Nat.mod_eq_of_lt hj] at hij
  exact hij

variable [BusSide β] {s t : I440fx β}

/-- The first `n` bytes at `address` are those that `s` showed at `src`, and nothing
else has changed. -/
structure Copied (address src : U32) (n : Nat) (s t : I440fx β) : Prop where
  pci : t.pci = s.pci
  chipset : t.chipset = s.chipset
  bus : t.bus = s.bus
  copied : ∀ i < n, t.ram (address + BitVec.ofNat 32 i) = s.load (src + BitVec.ofNat 32 i)
  outside : ∀ a, (∀ i < n, a ≠ address + BitVec.ofNat 32 i) → t.ram a = s.ram a

theorem copyRegion_succ : copyRegion address src (n + 1) s =
    (copyRegion address src n s).store (address + BitVec.ofNat 32 n)
      ((copyRegion address src n s).load (src + BitVec.ofNat 32 n)) := by
  simp only [copyRegion, List.range_succ, List.foldl_append, List.foldl_cons, List.foldl_nil]

/-- Where all stores go to RAM and no byte is read after it was written, the loop
copies. -/
theorem copyRegion_copied (hn : n ≤ 2 ^ 32)
    (hwrites : ∀ i < n, s.ramWrites (address + BitVec.ofNat 32 i) = true)
    (apart : ∀ j k, j < k → k < n →
      src + BitVec.ofNat 32 k ≠ address + BitVec.ofNat 32 j) :
    Copied address src n s (copyRegion address src n s) := by
  induction n with
  | zero => exact ⟨rfl, rfl, rfl, fun i hi => absurd hi (Nat.not_lt_zero i), fun _ _ => rfl⟩
  | succ n ih =>
      have h := ih (by omega) (fun i hi => hwrites i (by omega))
        (fun j k hjk hk => apart j k hjk (by omega))
      have same : ∀ a j, segmentOf a = some j →
          (copyRegion address src n s).mode j = s.mode j :=
        fun _ j _ => mode_congr h.pci h.chipset j
      have hload : (copyRegion address src n s).load (src + BitVec.ofNat 32 n) =
          s.load (src + BitVec.ofNat 32 n) :=
        load_congr (same _) (h.outside _ fun j hj => apart j n hj (Nat.lt_succ_self n)) h.bus
      have hwrite : (copyRegion address src n s).ramWrites (address + BitVec.ofNat 32 n) =
          true := by
        rw [ramWrites_congr (same _)]
        exact hwrites n (Nat.lt_succ_self n)
      rw [copyRegion_succ, hload, store, if_pos hwrite]
      refine ⟨h.pci, h.chipset, h.bus, ?_, ?_⟩
      · intro i hi
        by_cases hin : i = n
        · subst hin
          exact Function.update_self ..
        · have hne : address + BitVec.ofNat 32 i ≠ address + BitVec.ofNat 32 n :=
            fun heq => hin (offset_inj (by omega) (by omega) heq)
          exact (Function.update_of_ne hne _ _).trans (h.copied i (by omega))
      · intro a ha
        exact (Function.update_of_ne (ha n (Nat.lt_succ_self n)) _ _).trans
          (h.outside a fun i hi => ha i (by omega))

end Copy

/-! ### A run of segments -/

/-- Segments `segment` to `segment + n`. -/
def Between (segment n j : Nat) : Prop := segment ≤ j ∧ j < segment + n

/-- These segments are in mode `m`, and nothing else has changed. -/
structure Switched (segments : Nat → Prop) (m : PamMode) (s t : I440fx β) : Prop where
  set : ∀ j < 14, segments j → t.mode j = m
  others : ∀ j < 14, ¬ segments j → t.mode j = s.mode j
  ram : t.ram = s.ram
  bus : t.bus = s.bus

section Ranges

variable {address len a : U32} {segments : Nat → Prop}

theorem segmentOf_lt {j : Nat} (h : segmentOf a = some j) : j < 14 := by
  unfold segmentOf pamF0000 pamC0000 at h
  split at h
  · obtain rfl := Option.some.inj h
    omega
  · split at h
    · obtain rfl := Option.some.inj h
      omega
    · exact nomatch h

/-- A range that does not wrap consists of its bytes. -/
theorem inRange_iff (fits : address.toNat + len.toNat ≤ 2 ^ 32) :
    InRange address len a ↔ ∃ i < len.toNat, a = address + BitVec.ofNat 32 i := by
  constructor
  · rintro ⟨hle, hlt⟩
    refine ⟨a.toNat - address.toNat, by omega, BitVec.eq_of_toNat_eq ?_⟩
    rw [BitVec.toNat_add, BitVec.toNat_ofNat]
    have := a.isLt
    omega
  · rintro ⟨i, hi, rfl⟩
    rw [InRange, BitVec.toNat_add, BitVec.toNat_ofNat]
    omega

/-- A byte of a covered range is in one of its segments. -/
theorem Covers.segment (h : Covers segments address len) (ha : InRange address len a) :
    ∃ j < 14, segments j ∧ segmentOf a = some j := by
  obtain ⟨j, hj, hseg⟩ := (h a).mp ha
  exact ⟨j, segmentOf_lt hseg, hj, hseg⟩

/-- A byte outside is in none of them. -/
theorem Covers.not_segment (h : Covers segments address len) (ha : ¬ InRange address len a)
    {j : Nat} (hseg : segmentOf a = some j) : ¬ segments j :=
  fun hj => ha ((h a).mpr ⟨j, hj, hseg⟩)

theorem covers_16k {p n : Nat} (hp : p + n ≤ 12) (ha : address.toNat = 0xC0000 + 0x4000 * p)
    (hlen : len.toNat = 0x4000 * n) : Covers (Between (pamC0000 + p) n) address len := by
  intro a
  unfold InRange segmentOf Between pamF0000 pamC0000
  constructor
  · rintro ⟨hle, hlt⟩
    refine ⟨2 + (a.toNat - 0xC0000) / 0x4000, by omega, ?_⟩
    rw [if_neg (by omega), if_pos (by omega)]
  · rintro ⟨j, hj, hseg⟩
    split at hseg
    · obtain rfl := Option.some.inj hseg
      omega
    · split at hseg
      · obtain rfl := Option.some.inj hseg
        omega
      · exact nomatch hseg

theorem covers_64k : Covers (Between pamF0000 1) 0xF0000 0x10000 := by
  intro a
  unfold InRange segmentOf Between pamF0000 pamC0000
  change 0xF0000 ≤ a.toNat ∧ a.toNat < 0xF0000 + 0x10000 ↔ _
  constructor
  · rintro ⟨hle, hlt⟩
    exact ⟨1, by omega, if_pos (by omega)⟩
  · rintro ⟨j, hj, hseg⟩
    split at hseg
    · omega
    · split at hseg
      · obtain rfl := Option.some.inj hseg
        omega
      · exact nomatch hseg

end Ranges

section Loads

variable [BusSide β] {s t : I440fx β} {address len a : U32} {segments : Nat → Prop}

theorem Switched.load_inside (h : Switched segments .writeOnly s t)
    (covers : Covers segments address len) (ha : InRange address len a) :
    t.load a = BusSide.load a s.bus := by
  obtain ⟨j, hlt, hj, hseg⟩ := covers.segment ha
  simp [load, ramReads, hseg, h.set j hlt hj, PamMode.reads, h.bus]

theorem Switched.load_outside {m : PamMode} (h : Switched segments m s t)
    (covers : Covers segments address len) (ha : ¬ InRange address len a) :
    t.load a = s.load a := by
  refine load_congr ?_ (congrFun h.ram a) h.bus
  intro j hseg
  exact h.others j (segmentOf_lt hseg) (covers.not_segment ha hseg)

variable {bytes : Nat → U8}

theorem Shadowed.load_inside (h : Shadowed segments address len bytes s t)
    (covers : Covers segments address len) {i : Nat} (hi : i < len.toNat)
    (ha : InRange address len (address + BitVec.ofNat 32 i)) :
    t.load (address + BitVec.ofNat 32 i) = bytes i := by
  obtain ⟨j, hlt, hj, hseg⟩ := covers.segment ha
  simp [load, ramReads, hseg, h.switched j hlt hj, PamMode.reads, h.copied i hi]

theorem Shadowed.load_outside (h : Shadowed segments address len bytes s t)
    (covers : Covers segments address len) (ha : ¬ InRange address len a) :
    t.load a = s.load a := by
  refine load_congr ?_ (h.outside a ha) h.bus
  intro j hseg
  exact h.others j (segmentOf_lt hseg) (covers.not_segment ha hseg)

end Loads

section Run

variable {s : I440fx β} {segment n : Nat} {m : PamMode}

theorem setModes_total (h : segment + n ≤ 14) :
    Total (setModes segment m n) s fun _ t => Switched (Between segment n) m s t := by
  induction n with
  | zero =>
      refine total_pure ⟨?_, fun _ _ _ => rfl, rfl, rfl⟩
      rintro j - ⟨hle, hlt⟩
      omega
  | succ n ih =>
      refine Total.bind (ih (by omega)) ?_
      intro _ t ht
      obtain ⟨pci, hpci⟩ : ∃ pci,
          (pamSetMode t.chipset (segment + n) m).Returns t.pci () pci := pamSetMode_total
      have hrun : (zoom (pciLens β) (pamSetMode t.chipset (segment + n) m)).Returns t ()
          { t with pci := pci } := returns_zoom.mpr ⟨pci, hpci, rfl⟩
      obtain ⟨hmode, -, hram, hbus⟩ := mode_pamSetMode (by omega) hrun
      refine ⟨(), _, returns_bind.mpr ⟨t, t, returns_get.mpr ⟨rfl, rfl⟩, hrun⟩, ?_, ?_,
        hram.trans ht.ram, hbus.trans ht.bus⟩
      · rintro j hj ⟨hle, hlt⟩
        rw [hmode j hj]
        by_cases hlast : j = segment + n
        · exact if_pos hlast
        · rw [if_neg hlast]
          exact ht.set j hj ⟨hle, by omega⟩
      · intro j hj hout
        have hlast : j ≠ segment + n := fun heq => hout ⟨by omega, by omega⟩
        rw [hmode j hj, if_neg hlast]
        exact ht.others j hj fun hin => hout ⟨hin.1, by have := hin.2; omega⟩

variable [BusSide β] {address len src : U32} {bytes : Nat → U8}

/-- Where all stores go to RAM while the segments are write-only, a range that does
not wrap is filled with what the source shows then. -/
theorem shadowSegments_total (hn : 0 < n) (hseg : segment + n ≤ 14)
    (fits : address.toNat + len.toNat ≤ 2 ^ 32)
    (hwrites : ∀ i < len.toNat, ∃ j, segmentOf (address + BitVec.ofNat 32 i) = some j ∧
      (Between segment n j ∨ (s.mode j).writes = true))
    (apart : ∀ j k, j < k → k < len.toNat →
      src + BitVec.ofNat 32 k ≠ address + BitVec.ofNat 32 j)
    (hbytes : ∀ u, Switched (Between segment n) .writeOnly s u →
      ∀ i < len.toNat, u.load (src + BitVec.ofNat 32 i) = bytes i) :
    Total (shadowSegments segment n address len src) s fun result t =>
      result = true ∧ Shadowed (Between segment n) address len bytes s t := by
  rw [shadowSegments, if_neg (by omega)]
  refine Total.bind (setModes_total hseg) ?_
  intro _ u hu
  have hstores : ∀ i < len.toNat, u.ramWrites (address + BitVec.ofNat 32 i) = true := by
    intro i hi
    obtain ⟨j, hj, hmode⟩ := hwrites i hi
    simp only [ramWrites, hj]
    by_cases hin : Between segment n j
    · rw [hu.set j (segmentOf_lt hj) hin]
      rfl
    · rw [hu.others j (segmentOf_lt hj) hin]
      exact hmode.resolve_left hin
  have hcopy := copyRegion_copied (Nat.le_of_lt len.isLt) hstores apart
  refine Total.bind (total_modify (Q := fun _ v => Copied address src len.toNat u v) hcopy)
    fun _ v hv => ?_
  refine Total.bind (setModes_total hseg) fun _ t ht => total_pure ⟨rfl, ht.set, ?_, ?_, ?_, ?_⟩
  · intro j hj hout
    rw [ht.others j hj hout, mode_congr hv.pci hv.chipset, hu.others j hj hout]
  · intro i hi
    rw [ht.ram, hv.copied i hi, hbytes u hu i hi]
  · intro a ha
    rw [ht.ram, hv.outside a ?_, hu.ram]
    intro i hi heq
    exact ha ((inRange_iff fits).mpr ⟨i, hi, heq⟩)
  · rw [ht.bus, hv.bus, hu.bus]

end Run

/-! ### The calls -/

section Found

variable [BusSide β] {s t : I440fx β} {address len src : U32} {segments : Nat → Prop}
  {segment n : Nat}

/-- What is copied: what is on the bus if the range is shadowed onto itself, and
otherwise what the source shows. -/
def found (address src : U32) (s : I440fx β) (i : Nat) : U8 :=
  if src = address then BusSide.load (address + BitVec.ofNat 32 i) s.bus
  else s.load (src + BitVec.ofNat 32 i)

theorem SrcOk.apart (h : SrcOk address len src) :
    ∀ j k, j < k → k < len.toNat → src + BitVec.ofNat 32 k ≠ address + BitVec.ofNat 32 j := by
  have hlen := len.isLt
  intro j k hjk hk heq
  rcases h with rfl | hdisjoint
  · have := offset_inj (by omega) (by omega) heq
    omega
  · exact hdisjoint k hk j (by omega) heq

/-- A source elsewhere shows nothing of the range. -/
theorem SrcOk.outside (h : SrcOk address len src) (hne : src ≠ address)
    (fits : address.toNat + len.toNat ≤ 2 ^ 32) {i : Nat} (hi : i < len.toNat) :
    ¬ InRange address len (src + BitVec.ofNat 32 i) := by
  intro hin
  obtain ⟨j, hj, heq⟩ := (inRange_iff fits).mp hin
  exact h.resolve_left hne i hi j hj heq

/-- Shadowing whole segments. -/
theorem shadowSegments_found (hn : 0 < n) (hseg : segment + n ≤ 14)
    (covers : Covers (Between segment n) address len)
    (fits : address.toNat + len.toNat ≤ 2 ^ 32) (hsrc : SrcOk address len src) :
    Total (shadowSegments segment n address len src) s fun result t =>
      result = true ∧ Shadowed (Between segment n) address len (found address src s) s t := by
  have inside : ∀ i < len.toNat, InRange address len (address + BitVec.ofNat 32 i) :=
    fun i hi => (inRange_iff fits).mpr ⟨i, hi, rfl⟩
  refine shadowSegments_total hn hseg fits ?_ hsrc.apart ?_
  · intro i hi
    obtain ⟨j, -, hj, hsegment⟩ := covers.segment (inside i hi)
    exact ⟨j, hsegment, Or.inl hj⟩
  · intro u hu i hi
    rw [found]
    by_cases hsame : src = address
    · rw [if_pos hsame, hsame]
      exact hu.load_inside covers (inside i hi)
    · rw [if_neg hsame]
      exact hu.load_outside covers (hsrc.outside hsame fits hi)

/-! The upper half of 128 KB. -/

theorem add_upper (x : U32) (i : Nat) :
    x + 0x10000 + BitVec.ofNat 32 i = x + BitVec.ofNat 32 (0x10000 + i) := by
  rw [BitVec.ofNat_add, BitVec.add_assoc]
  rfl

theorem found_upper {i : Nat} :
    found (address + 0x10000) (src + 0x10000) s i = found address src s (0x10000 + i) := by
  rw [found, found, add_upper, add_upper]
  exact if_congr (add_left_inj _) rfl rfl

theorem SrcOk.upper (h : SrcOk address 0x20000 src) :
    SrcOk (address + 0x10000) 0x10000 (src + 0x10000) := by
  have bound : ∀ i < (0x10000 : U32).toNat, 0x10000 + i < (0x20000 : U32).toNat :=
    fun i hi => Nat.add_lt_add_left hi 0x10000
  rcases h with rfl | hdisjoint
  · exact Or.inl rfl
  · refine Or.inr ?_
    intro i hi j hj
    rw [add_upper, add_upper]
    exact hdisjoint _ (bound i hi) _ (bound j hj)

theorem toNat_upper (fits : address.toNat + 0x20000 ≤ 2 ^ 32) :
    (address + 0x10000).toNat = address.toNat + 0x10000 := by
  rw [BitVec.toNat_add]
  change (address.toNat + 0x10000) % 2 ^ 32 = _
  omega

theorem inRange_halves {a : U32} (fits : address.toNat + 0x20000 ≤ 2 ^ 32) :
    InRange address 0x20000 a ↔
      InRange address 0x10000 a ∨ InRange (address + 0x10000) 0x10000 a := by
  have hlong : (0x20000 : U32).toNat = 0x20000 := rfl
  have hhalf : (0x10000 : U32).toNat = 0x10000 := rfl
  simp only [InRange, toNat_upper fits, hlong, hhalf]
  omega

theorem not_inRange_lower {a : U32} (fits : address.toNat + 0x20000 ≤ 2 ^ 32)
    (ha : InRange (address + 0x10000) 0x10000 a) : ¬ InRange address 0x10000 a := by
  have hhalf : (0x10000 : U32).toNat = 0x10000 := rfl
  simp only [InRange, toNat_upper fits, hhalf] at ha ⊢
  omega

/-- What a shadowed upper half shows. -/
theorem Shadowed.load_upper (fits : address.toNat + 0x20000 ≤ 2 ^ 32)
    (upper : Covers segments (address + 0x10000) 0x10000)
    (h : Shadowed segments (address + 0x10000) 0x10000
      (found (address + 0x10000) (src + 0x10000) s) s t) {i : Nat} (hi : i < 0x20000)
    (hin : InRange (address + 0x10000) 0x10000 (address + BitVec.ofNat 32 i)) :
    t.load (address + BitVec.ofNat 32 i) = found address src s i := by
  have hhalf : (0x10000 : U32).toNat = 0x10000 := rfl
  have hnext := toNat_upper fits
  obtain ⟨k, hk, heq⟩ := (inRange_iff (by omega)).mp hin
  rw [add_upper] at heq
  have hlt : 0x10000 + k < 2 ^ 32 :=
    Nat.lt_trans (Nat.add_lt_add_left (show k < 0x10000 from hk) 0x10000) (by decide)
  obtain rfl := offset_inj (Nat.lt_trans hi (by decide)) hlt heq
  rw [← add_upper] at hin ⊢
  rw [h.load_inside upper hk hin, found_upper]

/-- Shadowing 128 KB, of which the upper half is shadowed already. -/
theorem shadowSegments_upper (hseg : segment + 4 ≤ 14)
    (lower : Covers (Between segment 4) address 0x10000)
    (upper : Covers segments (address + 0x10000) 0x10000)
    (fits : address.toNat + 0x20000 ≤ 2 ^ 32) (hsrc : SrcOk address 0x20000 src)
    (h : Shadowed segments (address + 0x10000) 0x10000
      (found (address + 0x10000) (src + 0x10000) s) s t) :
    Total (shadowSegments segment 4 address 0x20000 src) t fun result u =>
      result = true ∧ Shadowed (fun j => Between segment 4 j ∨ segments j) address 0x20000
        (found address src s) s u := by
  have inside : ∀ i < 0x20000, InRange address 0x20000 (address + BitVec.ofNat 32 i) :=
    fun i hi => (inRange_iff fits).mpr ⟨i, hi, rfl⟩
  have hmain : Total (shadowSegments segment 4 address 0x20000 src) t fun result u =>
      result = true ∧
        Shadowed (Between segment 4) address 0x20000 (found address src s) t u := by
    refine shadowSegments_total (Nat.succ_pos 3) hseg fits ?_ hsrc.apart ?_
    · intro i hi
      rcases (inRange_halves fits).mp (inside i hi) with hin | hin
      · obtain ⟨j, -, hj, hsegment⟩ := lower.segment hin
        exact ⟨j, hsegment, Or.inl hj⟩
      · obtain ⟨j, hlt, hj, hsegment⟩ := upper.segment hin
        refine ⟨j, hsegment, Or.inr ?_⟩
        rw [h.switched j hlt hj]
        rfl
    · intro u hu i hi
      by_cases hsame : src = address
      · subst hsame
        rcases (inRange_halves fits).mp (inside i hi) with hin | hin
        · rw [hu.load_inside lower hin, h.bus, found, if_pos rfl]
        · rw [hu.load_outside lower (not_inRange_lower fits hin),
            h.load_upper fits upper hi hin]
      · have hout := hsrc.outside hsame fits hi
        have hlower : ¬ InRange address 0x10000 (src + BitVec.ofNat 32 i) :=
          fun hin => hout ((inRange_halves fits).mpr (Or.inl hin))
        have hupper : ¬ InRange (address + 0x10000) 0x10000 (src + BitVec.ofNat 32 i) :=
          fun hin => hout ((inRange_halves fits).mpr (Or.inr hin))
        rw [hu.load_outside lower hlower, h.load_outside upper hupper, found, if_neg hsame]
  refine hmain.mono ?_
  rintro result u ⟨rfl, hu⟩
  refine ⟨rfl, ?_, ?_, hu.copied, ?_, hu.bus.trans h.bus⟩
  · rintro j hj hor
    by_cases hin : Between segment 4 j
    · exact hu.switched j hj hin
    · rw [hu.others j hj hin]
      exact h.switched j hj (hor.resolve_left hin)
  · intro j hj hout
    rw [hu.others j hj fun hin => hout (Or.inl hin)]
    exact h.others j hj fun hin => hout (Or.inr hin)
  · intro a ha
    rw [hu.outside a ha]
    exact h.outside a fun hin => ha ((inRange_halves fits).mpr (Or.inr hin))

end Found

section Calls

variable {address len src : U32} {region : Nat}

theorem pamRegionOf_some (h : pamRegionOf address = some region) :
    ∃ p ≤ 8, region = pamC0000 + p ∧ address.toNat = 0xC0000 + 0x4000 * p ∧
      (address = 0xC0000 ∨ address = 0xD0000 ∨ address = 0xE0000) := by
  unfold pamRegionOf at h
  split at h
  · rename_i haddr
    obtain rfl := Option.some.inj h
    subst haddr
    exact ⟨0, by omega, rfl, rfl, Or.inl rfl⟩
  · split at h
    · rename_i haddr
      obtain rfl := Option.some.inj h
      subst haddr
      exact ⟨4, by omega, rfl, rfl, Or.inr (Or.inl rfl)⟩
    · split at h
      · rename_i haddr
        obtain rfl := Option.some.inj h
        subst haddr
        exact ⟨8, by omega, rfl, rfl, Or.inr (Or.inr rfl)⟩
      · exact nomatch h

theorem mod_16k : len &&& 0x3FFF = 0 ↔ len.toNat % 0x4000 = 0 := by
  rw [← BitVec.toNat_inj, BitVec.toNat_and]
  exact Eq.congr (Nat.and_two_pow_sub_one_eq_mod len.toNat 14) rfl

theorem mod_64k : len &&& 0xFFFF = 0 ↔ len.toNat % 0x10000 = 0 := by
  rw [← BitVec.toNat_inj, BitVec.toNat_and]
  exact Eq.congr (Nat.and_two_pow_sub_one_eq_mod len.toNat 16) rfl

theorem numRegions : (len / 0x4000).toNat = len.toNat / 0x4000 := BitVec.toNat_udiv

variable [BusSide β] {s : I440fx β}

/-- A call for up to four segments of 16 KB. -/
theorem shadow_short {p n : Nat} (hregion : pamRegionOf address = some (pamC0000 + p))
    (hp : p ≤ 8) (haddr : address.toNat = 0xC0000 + 0x4000 * p) (hn : 0 < n) (hn4 : n ≤ 4)
    (hlen : len.toNat = 0x4000 * n) (hsrc : SrcOk address len src) :
    Total (chipsetShadowRomFromSrc address len src) s fun result t =>
      result = true ∧
        Shadowed (Between (pamC0000 + p) n) address len (found address src s) s t := by
  have heven : ¬ len &&& 0x3FFF ≠ 0 := not_not.mpr (mod_16k.mpr (by omega))
  have hcount : (len / 0x4000).toNat = n := by
    rw [numRegions]
    omega
  have hfew : ¬ len / 0x4000 > 4 := by
    rw [gt_iff_lt, BitVec.lt_def, hcount]
    exact Nat.not_lt.mpr hn4
  rw [chipsetShadowRomFromSrc, hregion]
  dsimp only
  rw [if_neg heven, if_neg hfew, hcount]
  exact shadowSegments_found hn (by unfold pamC0000; omega)
    (covers_16k (by omega) haddr hlen) (by omega) hsrc

/-- The call for the 64 KB segment. -/
theorem shadow_rom (hsrc : SrcOk 0xF0000 0x10000 src) :
    Total (chipsetShadowRomFromSrc 0xF0000 0x10000 src) s fun result t =>
      result = true ∧
        Shadowed (Between pamF0000 1) 0xF0000 0x10000 (found 0xF0000 src s) s t := by
  rw [chipsetShadowRomFromSrc]
  exact shadowSegments_found Nat.one_pos (by decide) covers_64k (by decide) hsrc

/-- The upper half of a call for 128 KB. -/
theorem shadow_next {p : Nat} (hregion : pamRegionOf address = some (pamC0000 + p))
    (hsrc : SrcOk (address + 0x10000) 0x10000 src) :
    ∃ segments, Covers segments (address + 0x10000) 0x10000 ∧
      Total (chipsetShadowRomFromSrc (address + 0x10000) 0x10000 src) s fun result t =>
        result = true ∧ Shadowed segments (address + 0x10000) 0x10000
          (found (address + 0x10000) src s) s t := by
  obtain ⟨_, -, -, -, rfl | rfl | rfl⟩ := pamRegionOf_some hregion
  · exact ⟨_, covers_16k (p := 4) (n := 4) (by omega) rfl rfl,
      shadow_short rfl (by omega) rfl (by omega) (by omega) rfl hsrc⟩
  · exact ⟨_, covers_16k (p := 8) (n := 4) (by omega) rfl rfl,
      shadow_short rfl (by omega) rfl (by omega) (by omega) rfl hsrc⟩
  · exact ⟨_, covers_64k, shadow_rom hsrc⟩

/-- A call for 128 KB. -/
theorem shadow_long {p : Nat} (hregion : pamRegionOf address = some (pamC0000 + p))
    (hp : p ≤ 8) (haddr : address.toNat = 0xC0000 + 0x4000 * p)
    (hsrc : SrcOk address 0x20000 src) :
    ∃ segments, Covers segments address 0x20000 ∧
      Total (chipsetShadowRomFromSrc address 0x20000 src) s fun result t =>
        result = true ∧ Shadowed segments address 0x20000 (found address src s) s t := by
  have hlong : (0x20000 : U32).toNat = 0x20000 := rfl
  have hhalf : (0x10000 : U32).toNat = 0x10000 := rfl
  have lower : Covers (Between (pamC0000 + p) 4) address 0x10000 :=
    covers_16k (by omega) haddr rfl
  obtain ⟨segments, upper, hnext⟩ := shadow_next (s := s) hregion hsrc.upper
  refine ⟨fun j => Between (pamC0000 + p) 4 j ∨ segments j, ?_, ?_⟩
  · intro a
    rw [inRange_halves (by omega), lower a, upper a]
    simp only [or_and_right, exists_or]
  · rw [chipsetShadowRomFromSrc, hregion]
    dsimp only
    rw [if_neg (by decide), if_pos (by decide), dif_pos (by decide)]
    refine Total.bind hnext ?_
    rintro _ t ⟨-, ht⟩
    exact shadowSegments_upper (by unfold pamC0000; omega) lower upper (by omega) hsrc ht

/-- Every valid call shadows its range. -/
theorem shadow_total (valid : Valid address len) (hsrc : SrcOk address len src) :
    ∃ segments, Covers segments address len ∧
      Total (chipsetShadowRomFromSrc address len src) s fun result t =>
        result = true ∧ Shadowed segments address len (found address src s) s t := by
  rcases valid with ⟨haddr, n, hn, hlen⟩ | ⟨rfl, rfl⟩
  · obtain ⟨p, hregion, hp, hbase⟩ : ∃ p, pamRegionOf address = some (pamC0000 + p) ∧ p ≤ 8 ∧
        address.toNat = 0xC0000 + 0x4000 * p := by
      rcases haddr with rfl | rfl | rfl
      · exact ⟨0, rfl, by omega, rfl⟩
      · exact ⟨4, rfl, by omega, rfl⟩
      · exact ⟨8, rfl, by omega, rfl⟩
    by_cases hlong : n = 8
    · obtain rfl : len = 0x20000 := BitVec.eq_of_toNat_eq (by rw [hlen, hlong]; rfl)
      exact shadow_long hregion hp hbase hsrc
    · exact ⟨_, covers_16k (by omega) hbase hlen,
        shadow_short hregion hp hbase (by omega) (by omega) hlen hsrc⟩
  · exact ⟨_, covers_64k, shadow_rom hsrc⟩

/-- `chipset_shadow_rom` copies what is on the bus. -/
theorem chipsetShadowRom_total (valid : Valid address len) :
    ∃ segments, Covers segments address len ∧
      Total (chipsetShadowRom address len) s fun result t =>
        result = true ∧ Shadowed segments address len
          (fun i => BusSide.load (address + BitVec.ofNat 32 i) s.bus) s t := by
  obtain ⟨segments, covers, htotal⟩ := shadow_total (s := s) valid (Or.inl rfl)
  refine ⟨segments, covers, htotal.mono fun result t h => ⟨h.1, ?_⟩⟩
  have hfound : found address address s =
      fun i => BusSide.load (address + BitVec.ofNat 32 i) s.bus := funext fun i => if_pos rfl
  rw [← hfound]
  exact h.2

/-- Every other call is refused, unless it is for a multiple of 64 KB at `0xF0000`. -/
theorem shadow_refused (invalid : ¬ Valid address len)
    (hrom : ¬ (address = 0xF0000 ∧ 0x10000 ∣ len.toNat)) :
    (chipsetShadowRomFromSrc address len src).Returns s false s := by
  rw [chipsetShadowRomFromSrc]
  cases hregion : pamRegionOf address with
  | some region =>
      obtain ⟨p, hp, rfl, hbase, haddr⟩ := pamRegionOf_some hregion
      have hnot : ∀ n, (n = 1 ∨ n = 2 ∨ n = 3 ∨ n = 4 ∨ n = 8) → len.toNat ≠ 0x4000 * n :=
        fun n hn hlen => invalid (Or.inl ⟨haddr, n, hn, hlen⟩)
      dsimp only
      by_cases heven : len &&& 0x3FFF = 0
      · have hlen : len.toNat = 0x4000 * (len / 0x4000).toNat := by
          have := mod_16k.mp heven
          rw [numRegions]
          omega
        rw [if_neg (not_not.mpr heven)]
        by_cases hmany : len / 0x4000 > 4
        · have hne : len / 0x4000 ≠ 8 := by
            intro h8
            rw [h8] at hlen
            exact hnot 8 (by omega) hlen
          rw [if_pos hmany, dif_neg hne]
          exact returns_pure.mpr ⟨rfl, rfl⟩
        · have hfew : (len / 0x4000).toNat ≤ 4 :=
            Nat.not_lt.mp fun hlt => hmany (BitVec.lt_def.mpr hlt)
          have hzero : (len / 0x4000).toNat = 0 := by
            by_contra hpos
            exact hnot _ (by omega) hlen
          rw [if_neg hmany, shadowSegments, if_pos hzero]
          exact returns_pure.mpr ⟨rfl, rfl⟩
      · rw [if_pos heven]
        exact returns_pure.mpr ⟨rfl, rfl⟩
  | none =>
      dsimp only
      by_cases haddr : address = 0xF0000
      · have hodd : len &&& 0xFFFF ≠ 0 := fun heven =>
          hrom ⟨haddr, Nat.dvd_of_mod_eq_zero (mod_64k.mp heven)⟩
        rw [if_pos haddr, if_pos hodd]
        exact returns_pure.mpr ⟨rfl, rfl⟩
      · rw [if_neg haddr]
        exact returns_pure.mpr ⟨rfl, rfl⟩

/-- A call at `0xF0000` says `true` for every multiple of 64 KB. -/
theorem shadow_rom_true (hlen : 0x10000 ∣ len.toNat) :
    Total (chipsetShadowRomFromSrc 0xF0000 len src) s fun result _ => result = true := by
  have heven : ¬ len &&& 0xFFFF ≠ 0 :=
    not_not.mpr (mod_64k.mpr (Nat.mod_eq_zero_of_dvd hlen))
  have hregion : pamRegionOf 0xF0000 = none := rfl
  rw [chipsetShadowRomFromSrc, hregion]
  dsimp only
  rw [if_pos rfl, if_neg heven, shadowSegments, if_neg Nat.one_ne_zero]
  refine Total.bind (setModes_total (by decide)) ?_
  intro _ u _
  exact Total.modify_bind (Total.bind (setModes_total (by decide)) fun _ t _ => total_pure rfl)

/-- Only 64 KB at `0xF0000` are a union of segments. -/
theorem covers_rom {segments : Nat → Prop} (hlen : 0x10000 ∣ len.toNat) (hpos : 0 < len.toNat)
    (h : Covers segments 0xF0000 len) : len = 0x10000 := by
  by_contra hne
  have hne' : len.toNat ≠ 0x10000 := fun heq => hne (BitVec.eq_of_toNat_eq heq)
  have hout : InRange 0xF0000 len 0x100000 := by
    change 0xF0000 ≤ 0x100000 ∧ 0x100000 < 0xF0000 + len.toNat
    omega
  obtain ⟨j, -, hseg⟩ := (h 0x100000).mp hout
  exact nomatch hseg

/-- A call at `0xF0000` for a length that is no segment goes wrong. -/
theorem not_shadowsRight_rom (hlen : 0x10000 ∣ len.toNat) (hne : len ≠ 0x10000) :
    ¬ ShadowsRight 0xF0000 len src s := by
  rintro ⟨result, t, hrun, hright⟩
  obtain ⟨_, t', hrun', rfl⟩ : Total (chipsetShadowRomFromSrc 0xF0000 len src) s
      fun result _ => result = true := shadow_rom_true hlen
  obtain ⟨rfl, -⟩ := hrun.functional hrun'
  obtain ⟨hpos, segments, covers, -⟩ := hright
  exact hne (covers_rom hlen hpos covers)

/-- What a valid call does is right exactly when what is copied is what the source
showed. -/
theorem shadowsRight_valid (valid : Valid address len) (hsrc : SrcOk address len src) :
    ShadowsRight address len src s ↔
      ∀ i < len.toNat, found address src s i = s.load (src + BitVec.ofNat 32 i) := by
  obtain ⟨segments, covers, result, t, hrun, rfl, ht⟩ := shadow_total (s := s) valid hsrc
  constructor
  · rintro ⟨_, t', hrun', hright⟩ i hi
    obtain ⟨rfl, rfl⟩ := hrun.functional hrun'
    obtain ⟨-, _, -, ht'⟩ := hright
    rw [← ht.copied i hi, ht'.copied i hi]
  · intro h
    have hpos : 0 < len.toNat := by
      rcases valid with ⟨-, n, hn, hlen⟩ | ⟨-, rfl⟩
      · omega
      · decide
    refine ⟨true, t, hrun, hpos, segments, covers, ht.switched, ht.others, ?_, ht.outside, ht.bus⟩
    intro i hi
    rw [ht.copied i hi, h i hi]

/-- The function does its job on all other calls, as far as what the source showed was
on the bus. -/
theorem shadowsRight_iff (hsrc : SrcOk address len src) :
    ShadowsRight address len src s ↔
      ¬ (address = 0xF0000 ∧ 0x10000 ∣ len.toNat ∧ len ≠ 0x10000) ∧
        (src = address → Valid address len → ∀ i < len.toNat,
          s.load (address + BitVec.ofNat 32 i) =
            BusSide.load (address + BitVec.ofNat 32 i) s.bus) := by
  by_cases valid : Valid address len
  · have hrom : ¬ (address = 0xF0000 ∧ 0x10000 ∣ len.toNat ∧ len ≠ 0x10000) := by
      rintro ⟨rfl, -, hne⟩
      rcases valid with ⟨h | h | h, -⟩ | ⟨-, hlen⟩
      · exact absurd h (by decide)
      · exact absurd h (by decide)
      · exact absurd h (by decide)
      · exact hne hlen
    rw [shadowsRight_valid valid hsrc, and_iff_right hrom]
    by_cases hsame : src = address
    · subst hsame
      simp only [found, if_pos, valid, true_imp_iff, eq_comm]
    · simp only [found, hsame, if_false, implies_true, false_imp_iff]
  · by_cases hrom : address = 0xF0000 ∧ 0x10000 ∣ len.toNat
    · obtain ⟨rfl, hlen⟩ := hrom
      have hne : len ≠ 0x10000 := fun heq => valid (Or.inr ⟨rfl, heq⟩)
      constructor
      · exact fun h => absurd h (not_shadowsRight_rom hlen hne)
      · exact fun h => absurd ⟨rfl, hlen, hne⟩ h.1
    · constructor
      · exact fun _ => ⟨fun h => hrom ⟨h.1, h.2.1⟩, fun _ h => absurd h valid⟩
      · exact fun _ => ⟨false, s, shadow_refused valid hrom, rfl, rfl, rfl⟩

end Calls

/-! ### A bus with a memory on it -/

instance flatBus : BusSide (U32 → U8) where
  load a m := m a
  store a v m := Function.update m a v

/-- The 82441FX of `find_chipset`. -/
def hostBridge : PciDevice where
  baseConfigAddress := 0x80000000
  bus := 0
  device := 0
  func := 0
  vendorId := 0x8086
  deviceId := 0x1237
  status := 0x280
  command := 0x6
  class_ := 6
  subclass := 0
  progIf := 0
  revision := 2
  bist := 0
  headerType := 0
  latencyTimer := 0
  cacheLineSize := 0

/-- All segments show the ROM. -/
def atReset : I440fx (U32 → U8) where
  pci := { address := 0, space := fun _ => 0, dev := hostBridge }
  chipset := hostBridge
  ram := fun _ => 0
  bus := fun a => a.setWidth 8

theorem atReset_load (a : U32) : atReset.load a = a.setWidth 8 := by
  have hreads : atReset.ramReads a = false := by
    rw [ramReads]
    cases segmentOf a with
    | none => rfl
    | some j =>
        have hbyte : (bytePlace atReset.chipset.baseConfigAddress (pamOffset j)).get
            atReset.pci.space = 0 := by
          show Lane.get 8 _ (0 : U32) = 0
          simp [Lane.get]
        simp only [mode, hbyte]
        simp [PamMode.ofBits, PamMode.reads]
  rw [load, hreads]
  rfl

theorem shadowsRight_iff_atReset :
    SrcOk 0xE0000 0x4000 0xE0000 ∧ ShadowsRight 0xE0000 0x4000 0xE0000 atReset := by
  refine ⟨Or.inl rfl, (shadowsRight_iff (Or.inl rfl)).mpr ⟨?_, ?_⟩⟩
  · exact fun h => absurd h.1 (by decide)
  · intro _ _ i _
    exact atReset_load _

/-- No bytes at `0xF0000` are shadowed with success. -/
theorem shadowsRight_fails :
    SrcOk 0xF0000 0 0xF0000 ∧ ¬ ShadowsRight 0xF0000 0 0xF0000 atReset :=
  ⟨Or.inl rfl, not_shadowsRight_rom (by decide) (by decide)⟩

end MyBios.I440fx
