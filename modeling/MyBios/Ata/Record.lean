import MyBios.Ata.Identify

/-!
What `ata_identify` makes of the 256 words of the reply.

Sizes are put together from words as `int`s. A 28-bit size is stored in 32 bits and comes
out right; the low half of a 48-bit size is extended to 64 bits with its sign.

* `toNat_identifyBlocks48`: the 48-bit size that is stored.
* `decoded_iff`: the record is what the words say, but for a 48-bit size with bit 31
  set, unless its upper half is all ones.
-/

namespace MyBios

open Prog AtaState

section Record

/-- A number in two words, the lower one first. -/
def words2 (w : Nat → U16) (i : Nat) : Nat := (w i).toNat + (w (i + 1)).toNat * 2 ^ 16

/-- What the words of the reply say about the drive. -/
structure DriveDecoded (w : Nat → U16) (slave : Bool) (info : AtaDrive) : Prop where
  blocks48 : info.blocks48.toNat = words2 w 100 + words2 w 102 * 2 ^ 32
  blocks28 : words2 w 60 ≠ 0 → info.blocks28.toNat = words2 w 60
  current : words2 w 60 = 0 → (w 53).getLsbD 0 = true → info.blocks28.toNat = words2 w 57
  lba28 : info.flags &&& ataDriveLba28 ≠ 0 ↔ words2 w 60 ≠ 0
  lba48 : info.flags &&& ataDriveLba48 ≠ 0 ↔ words2 w 100 + words2 w 102 * 2 ^ 32 ≠ 0
  slave : info.flags &&& ataDriveSlave ≠ 0 ↔ slave = true
  high : ∀ k < 20, (info.model[2 * k]?).map BitVec.toNat = some ((w (27 + k)).toNat / 256)
  low : ∀ k < 20, (info.model[2 * k + 1]?).map BitVec.toNat = some ((w (27 + k)).toNat % 256)
  terminated : info.model[40]? = some 0

/-- The words whose 48-bit size is decoded: bit 31 is clear, or the upper half is what
its sign extends to. -/
def SizeFits (w : Nat → U16) : Prop :=
  (w 101).toNat < 2 ^ 15 ∨ ((w 102).toNat = 2 ^ 16 - 1 ∧ (w 103).toNat = 2 ^ 16 - 1)

variable {w : Nat → U16}

/-- The two halves of the 48-bit size, below bit 31 of the lower one. -/
theorem blocks48_positive {x : U32} (a b : U16) (h : x.msb = false) :
    (x.signExtend 64 ||| (a.setWidth 64 <<< 32) ||| (b.setWidth 64 <<< 48) : U64) =
      (b ++ a : U32) ++ x := by
  apply BitVec.eq_of_getLsbD_eq
  intro i hi
  simp only [BitVec.getLsbD_or, BitVec.getLsbD_signExtend, BitVec.getLsbD_shiftLeft,
    BitVec.getLsbD_setWidth, BitVec.getLsbD_append, hi, h, decide_true, Bool.true_and]
  by_cases h32 : i < 32
  · have h48 : i < 48 := by omega
    simp [h32, h48]
  · by_cases h48 : i < 48
    · have h16 : i - 32 < 16 := by omega
      have h64 : i - 32 < 64 := by omega
      simp [h32, h48, h16, h64]
    · have h16 : ¬ i - 32 < 16 := by omega
      have h64 : i - 48 < 64 := by omega
      have hsub : i - 32 - 16 = i - 48 := by omega
      have ha : a.getLsbD (i - 32) = false := BitVec.getLsbD_of_ge _ _ (by omega)
      simp [h32, h48, h16, h64, hsub, ha]

/-- From bit 31 on, the sign fills the upper half. -/
theorem blocks48_negative {x : U32} (a b : U16) (h : x.msb = true) :
    (x.signExtend 64 ||| (a.setWidth 64 <<< 32) ||| (b.setWidth 64 <<< 48) : U64) =
      BitVec.allOnes 32 ++ x := by
  apply BitVec.eq_of_getLsbD_eq
  intro i hi
  simp only [BitVec.getLsbD_or, BitVec.getLsbD_signExtend, BitVec.getLsbD_shiftLeft,
    BitVec.getLsbD_setWidth, BitVec.getLsbD_append, BitVec.getLsbD_allOnes, hi, h, decide_true,
    Bool.true_and]
  by_cases h32 : i < 32
  · have h48 : i < 48 := by omega
    simp [h32, h48]
  · have hhigh : i - 32 < 32 := by omega
    simp [h32, hhigh]

theorem toNat_append_words {n m : Nat} (x : BitVec n) (y : BitVec m) :
    (x ++ y).toNat = x.toNat * 2 ^ m + y.toNat := by
  rw [BitVec.toNat_append, ← Nat.shiftLeft_add_eq_or_of_lt y.isLt, Nat.shiftLeft_eq]

theorem msb_blocks48 : (w 101 ++ w 100 : U32).msb = decide (2 ^ 15 ≤ (w 101).toNat) := by
  rw [BitVec.msb_append, if_neg (by decide), BitVec.msb_eq_decide]

/-- The 48-bit size of the record. -/
theorem toNat_identifyBlocks48 :
    (identifyBlocks48 w).toNat =
      if 2 ^ 15 ≤ (w 101).toNat then words2 w 100 + (2 ^ 32 - 1) * 2 ^ 32
      else words2 w 100 + words2 w 102 * 2 ^ 32 := by
  have hlow : (w 101 ++ w 100 : U32).toNat = words2 w 100 := by
    rw [toNat_append_words, words2, Nat.add_comm]
  have hhigh : (w 103 ++ w 102 : U32).toNat = words2 w 102 := by
    rw [toNat_append_words, words2, Nat.add_comm]
  by_cases hsign : 2 ^ 15 ≤ (w 101).toNat
  · rw [if_pos hsign, identifyBlocks48,
      blocks48_negative _ _ (by rw [msb_blocks48, decide_eq_true hsign]), toNat_append_words, hlow,
      BitVec.toNat_allOnes, Nat.add_comm]
  · rw [if_neg hsign, identifyBlocks48,
      blocks48_positive _ _ (by rw [msb_blocks48, decide_eq_false hsign]), toNat_append_words,
      hlow, hhigh, Nat.add_comm]

/-- The 48-bit size is right exactly when it fits. -/
theorem blocks48_iff :
    (identifyBlocks48 w).toNat = words2 w 100 + words2 w 102 * 2 ^ 32 ↔ SizeFits w := by
  have h102 := (w 102).isLt
  have h103 := (w 103).isLt
  have hupper : words2 w 102 = (w 102).toNat + (w 103).toNat * 2 ^ 16 := rfl
  rw [toNat_identifyBlocks48, SizeFits]
  split <;> omega

theorem toNat_words (i : Nat) : (w (i + 1) ++ w i : U32).toNat = words2 w i := by
  rw [toNat_append_words, words2, Nat.add_comm]

/-- The 28-bit size: from the LBA words, or from the current translation. -/
theorem identifyBlocks_cases :
    ((identifyBlocks w).2 = true ↔ words2 w 60 ≠ 0) ∧
      (words2 w 60 ≠ 0 → (identifyBlocks w).1.toNat = words2 w 60) ∧
      (words2 w 60 = 0 → (w 53).getLsbD 0 = true → (identifyBlocks w).1.toNat = words2 w 57) := by
  have hlba : (w 61 ++ w 60 : U32).toNat = words2 w 60 := toNat_words 60
  have hpositive : (w 61 ++ w 60 : U32) > 0 ↔ words2 w 60 ≠ 0 := by
    rw [gt_iff_lt, BitVec.lt_def, hlba]
    exact Nat.pos_iff_ne_zero
  have hvalid : (w 53).getLsbD 0 = true → w 53 &&& 0x1 ≠ 0 := by
    intro hbit heq
    have hodd : (w 53 &&& 0x1).getLsbD 0 = false := by rw [heq]; rfl
    rw [BitVec.getLsbD_and, hbit] at hodd
    exact absurd hodd (by decide)
  unfold identifyBlocks
  by_cases hzero : words2 w 60 = 0
  · rw [if_neg (by rw [hpositive]; exact not_not_intro hzero)]
    refine ⟨?_, fun hne => absurd hzero hne, ?_⟩
    · split <;> simp [hzero]
    · intro _ hbit
      rw [if_pos (hvalid hbit)]
      exact toNat_words 57
  · rw [if_pos (hpositive.mpr hzero)]
    exact ⟨iff_of_true rfl hzero, fun _ => hlba, fun h => absurd h hzero⟩

/-- The three flags do not share bits. -/
theorem flags_bits (lba28 lba48 slave : Bool) :
    let flags := (if lba28 then ataDriveLba28 else 0) ||| (if lba48 then ataDriveLba48 else 0) |||
      (if slave then ataDriveSlave else 0)
    (flags &&& ataDriveLba28 ≠ 0 ↔ lba28 = true) ∧ (flags &&& ataDriveLba48 ≠ 0 ↔ lba48 = true) ∧
      (flags &&& ataDriveSlave ≠ 0 ↔ slave = true) := by
  revert lba28 lba48 slave
  decide

/-- A list that is flattened from pairs, at even and at odd places. -/
theorem getElem?_pairs {α β : Type} (f g : α → β) (l : List α) (k : Nat) :
    (l.flatMap fun a => [f a, g a])[2 * k]? = l[k]?.map f ∧
      (l.flatMap fun a => [f a, g a])[2 * k + 1]? = l[k]?.map g := by
  induction l generalizing k with
  | nil => simp
  | cons a l ih =>
      cases k with
      | zero => exact ⟨rfl, rfl⟩
      | succ k => exact ih k

theorem length_pairs {α β : Type} (f g : α → β) (l : List α) :
    (l.flatMap fun a => [f a, g a]).length = 2 * l.length := by
  induction l with
  | nil => rfl
  | cons a l ih =>
      rw [List.flatMap_cons, List.length_append, ih, List.length_cons]
      exact Nat.add_comm ..

/-- The name: two characters a word, the high byte first, and a terminator. -/
theorem identifyModel_chars {k : Nat} (hk : k < 20) :
    (identifyModel w)[2 * k]? = some ((w (27 + k)).extractLsb' 8 8) ∧
      (identifyModel w)[2 * k + 1]? = some ((w (27 + k)).extractLsb' 0 8) ∧
      (identifyModel w)[40]? = some 0 := by
  obtain ⟨heven, hodd⟩ := getElem?_pairs (fun i => (w (ataIdentModel + i)).extractLsb' 8 8)
    (fun i => (w (ataIdentModel + i)).extractLsb' 0 8) (List.range 20) k
  have hlen := length_pairs (fun i => (w (ataIdentModel + i)).extractLsb' 8 8)
    (fun i => (w (ataIdentModel + i)).extractLsb' 0 8) (List.range 20)
  rw [List.length_range] at hlen
  rw [List.getElem?_range hk] at heven hodd
  refine ⟨?_, ?_, ?_⟩
  · rw [identifyModel, List.getElem?_append_left (by omega)]
    exact heven
  · rw [identifyModel, List.getElem?_append_left (by omega)]
    exact hodd
  · rw [identifyModel, List.getElem?_append_right (by omega), hlen]
    rfl

theorem toNat_bytes (x : U16) :
    (x.extractLsb' 8 8).toNat = x.toNat / 256 ∧ (x.extractLsb' 0 8).toNat = x.toNat % 256 := by
  have hx := x.isLt
  rw [BitVec.extractLsb'_toNat, BitVec.extractLsb'_toNat, Nat.shiftRight_eq_div_pow,
    Nat.shiftRight_zero]
  omega

/-- The record is what the words say exactly when the 48-bit size fits. -/
theorem decoded_identifyDrive (dev : DevRef) (slave : Bool) :
    DriveDecoded w slave (identifyDrive dev slave w) ↔ SizeFits w := by
  rw [← blocks48_iff]
  constructor
  · exact DriveDecoded.blocks48
  · intro hsize
    obtain ⟨hlba, hblocks, hcurrent⟩ := identifyBlocks_cases (w := w)
    have hpositive : identifyBlocks48 w > 0 ↔ words2 w 100 + words2 w 102 * 2 ^ 32 ≠ 0 := by
      rw [gt_iff_lt, BitVec.lt_def, hsize]
      exact Nat.pos_iff_ne_zero
    have hflags : (identifyDrive dev slave w).flags =
        (if (identifyBlocks w).2 then ataDriveLba28 else 0) |||
          (if decide (identifyBlocks48 w > 0) then ataDriveLba48 else 0) |||
            (if slave then ataDriveSlave else 0) := by
      simp only [identifyDrive, decide_eq_true_eq]
    obtain ⟨hbit28, hbit48, hbitSlave⟩ :=
      flags_bits (identifyBlocks w).2 (identifyBlocks48 w > 0) slave
    exact
      { blocks48 := hsize
        blocks28 := hblocks
        current := hcurrent
        lba28 := by rw [hflags, hbit28, hlba]
        lba48 := by rw [hflags, hbit48, decide_eq_true_eq, hpositive]
        slave := by rw [hflags, hbitSlave]
        high := by
          intro k hk
          rw [identifyDrive, (identifyModel_chars hk).1, Option.map_some, (toNat_bytes _).1]
        low := by
          intro k hk
          rw [identifyDrive, (identifyModel_chars hk).2.1, Option.map_some, (toNat_bytes _).2]
        terminated := (identifyModel_chars (k := 0) (by decide)).2.2 }

end Record

/-! ### Runs -/

variable {δ : Type} [Bus δ] {s t : AtaState δ} {dev : DevRef} {slave : Bool} {info : Fin 4}

theorem inw_words_inj {p q : U16} {words words' : List U16}
    (h : words.map (PortEvent.inw p) = words'.map (.inw q)) : words = words' := by
  have hvalue := congrArg (List.filterMap fun
    | .inw _ v => some v
    | _ => none) h
  rw [List.filterMap_map, List.filterMap_map] at hvalue
  simpa [Function.comp_def] using hvalue

/-- In every run that reports a drive, the record is what the 256 words that were read
say, exactly when the 48-bit size fits. -/
theorem decoded_iff {port : U16} {pre : List PortEvent} {words : List U16}
    (h : (ataIdentify dev slave info).Returns s true t) (hlen : words.length = 256)
    (hlog : t.log = pre ++ words.map (.inw port)) :
    DriveDecoded (fun i => words.getD i 0) slave (t.devAtaDrives info) ↔
      SizeFits fun i => words.getD i 0 := by
  rw [ataIdentify_eq] at h
  obtain ⟨_, s₁, -, hreply⟩ := returns_bind.mp h
  obtain ⟨vs, v, d, -, h⟩ := returns_identifyReply.mp hreply
  by_cases hzero : v = 0
  · rw [if_pos hzero] at h
    cases h.1
  · rw [if_neg hzero] at h
    obtain ⟨vs', v', d', -, h⟩ := h
    by_cases haccept : IdentifyAccept v'
    · rw [if_pos haccept] at h
      obtain ⟨-, rfl⟩ := h
      rw [log_identified, ← List.append_assoc] at hlog
      have hcut := (List.append_inj' hlog (by simp [hlen])).2
      rw [← inw_words_inj hcut, ← decoded_identifyDrive dev slave]
      simp [identified, AtaState.setDrive]
    · rw [if_neg haccept] at h
      cases h.1

/-! ### On the scripted drive -/

theorem afterWords_scripted {port : U16} {statuses : List U8} {words : List U16} (n : Nat) :
    afterWords port n (⟨statuses, words⟩ : ScriptedDrive) = ⟨statuses, words.drop n⟩ := by
  induction n with
  | zero => rfl
  | succ n ih =>
      rw [afterWords_succ, ih]
      show (⟨statuses, (words.drop n).tail⟩ : ScriptedDrive) = _
      rw [List.tail_drop]

/-- The words of the script, and then zeros. -/
theorem wordsFrom_scripted {port : U16} {statuses : List U8} {words : List U16} (n : Nat) :
    wordsFrom port n (⟨statuses, words⟩ : ScriptedDrive) =
      (List.range n).map fun i => words.getD i 0 := by
  induction n with
  | zero => rfl
  | succ n ih =>
      have hword : (Bus.inw port (⟨statuses, words.drop n⟩ : ScriptedDrive)).1 =
          words.getD n 0 := by
        show (words.drop n).headD 0 = words.getD n 0
        rw [List.headD_eq_head?_getD, List.head?_drop, List.getD_eq_getElem?_getD]
      rw [wordsFrom, ih, afterWords_scripted, hword, List.range_succ, List.map_append]
      rfl

/-- The words of a drive with LBA whose 48-bit size has `size` in word 101. -/
def sizeWord (size : U16) (i : Nat) : U16 :=
  if i = 101 then size else if 100 ≤ i ∧ i ≤ 103 then 0 else BitVec.ofNat 16 (0x4300 + i)

def sizeWords (size : U16) : List U16 := (List.range 256).map (sizeWord size)

theorem getD_sizeWords (size : U16) (i : Nat) :
    (sizeWords size).getD i 0 = if i < 256 then sizeWord size i else 0 := by
  rw [sizeWords, List.getD_eq_getElem?_getD, List.getElem?_map]
  by_cases hi : i < 256
  · rw [List.getElem?_range hi, if_pos hi]
    rfl
  · rw [List.getElem?_eq_none (by simpa using hi), if_neg hi]
    rfl

/-- A run that reads these words. -/
theorem scripted_sizeWords (size : U16) :
    ∃ t pre, (ataIdentify (some 0) false 0).Returns
        (.scripted ⟨[0x58, 0x58], sizeWords size⟩) true t ∧
      t.log = pre ++ (sizeWords size).map (.inw (dataPort 0x1F0)) ∧
      t.devAtaDrives 0 = identifyDrive (some 0) false fun i => (sizeWords size).getD i 0 := by
  obtain ⟨s₁, t, -, -, hbase, h, rfl⟩ := scripted_identify 0x58 0x58 (sizeWords size)
    (by decide) (by decide) (by decide)
  have hwords : wordsFrom (dataPort (s₁.device (some 0)).base) 256
      (⟨[], sizeWords size⟩ : ScriptedDrive) = sizeWords size := by
    rw [wordsFrom_scripted, sizeWords]
    exact List.map_congr_left fun i hi =>
      (getD_sizeWords size i).trans (if_pos (List.mem_range.mp hi))
  refine ⟨_, s₁.log ++ [0x58, 0x58].map (.inb (statusPort 0x1F0)), h, ?_, ?_⟩
  · rw [log_identified, hwords, hbase, ← List.append_assoc]
  · rw [identified, hwords]
    simp [AtaState.setDrive]

/-- A disk of 2^20 blocks. -/
theorem decoded_iff_small :
    ∃ t, (ataIdentify (some 0) false 0).Returns
        (.scripted ⟨[0x58, 0x58], sizeWords 0x10⟩) true t ∧
      DriveDecoded (fun i => (sizeWords 0x10).getD i 0) false (t.devAtaDrives 0) := by
  obtain ⟨t, pre, h, hlog, -⟩ := scripted_sizeWords 0x10
  have hlen : (sizeWords 0x10).length = 256 := by
    rw [sizeWords, List.length_map, List.length_range]
  refine ⟨t, h, (decoded_iff h hlen hlog).mpr (.inl ?_)⟩
  simp only [getD_sizeWords]
  decide

/-- A disk of 2^31 blocks. -/
theorem decoded_fails :
    ∃ t, (ataIdentify (some 0) false 0).Returns
        (.scripted ⟨[0x58, 0x58], sizeWords 0x8000⟩) true t ∧
      (t.devAtaDrives 0).blocks48 = 0xFFFFFFFF80000000 ∧
      ¬ DriveDecoded (fun i => (sizeWords 0x8000).getD i 0) false (t.devAtaDrives 0) := by
  obtain ⟨t, pre, h, -, hdrive⟩ := scripted_sizeWords 0x8000
  refine ⟨t, h, ?_, ?_⟩
  · rw [hdrive]
    simp only [identifyDrive, identifyBlocks48, getD_sizeWords]
    decide
  · intro hdecoded
    have hsize := hdecoded.blocks48
    rw [hdrive] at hsize
    simp only [identifyDrive, identifyBlocks48, words2, getD_sizeWords] at hsize
    exact absurd hsize (by decide)

end MyBios
