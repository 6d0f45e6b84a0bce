import MyBios.Ata.Record
import MyBios.Ata.Selection

/-!
Looking for drives at boot (`hd_init` of `main.c`).

Both channels are initialized in turn, and on each one that is there the master and
then the slave are identified. A drive that answers keeps its record in
`dev_ata_drives`; the next one gets the next record. A pointer past the end of the
table is allowed as long as nothing is read or written there: `none` is the result of
a scan that does.

* `hd_init_spec`: whatever the devices answer, the scan stays inside the table. The
  records in use come first, each has the channel and the unit of its own drive, in
  the order of the scan, and the others have no device.
-/

namespace MyBios

open Prog AtaState

variable {δ : Type}

/-! ### The code -/

section Code

variable [Bus δ]

/-- One `ata_identify` of `scan_dev`, for the record `num_drives` points to. -/
def scanDrive (ata : DevRef) (slave : Bool) (numDrives : Nat) :
    Prog (AtaState δ) (Option Nat) :=
  if h : numDrives < 4 then do
    let found ← ataIdentify ata slave ⟨numDrives, h⟩
    pure (some (if found then numDrives + 1 else numDrives))
  else pure none

/-- `scan_dev`. -/
def scanDev (ata : DevRef) (numDrives : Nat) : Prog (AtaState δ) (Option Nat) := do
  match ← scanDrive ata false numDrives with
  | none => pure none
  | some numDrives => scanDrive ata true numDrives

/-- The part of `hd_init` for one channel. -/
def scanChannel (base irq : U32) (numDrives : Nat) : Prog (AtaState δ) (Option Nat) := do
  match ← ataInit base irq with
  | some ata => scanDev (some ata) numDrives
  | none => pure (some numDrives)

/-- `hd_init`; the result is the number of drives. -/
def hdInit : Prog (AtaState δ) (Option Nat) := do
  match ← scanChannel 0x1F0 14 0 with
  | none => pure none
  | some numDrives => scanChannel 0x170 15 numDrives

end Code

/-! ### What the driver leaves alone -/

/-- From `s₀` to `s` no channel was added or moved, and no record changed. -/
structure TablesKept (s₀ s : AtaState δ) : Prop where
  numDevices : s.numDevices = s₀.numDevices
  base : ∀ i, (s.ataDevices i).base = (s₀.ataDevices i).base
  devAtaDrives : s.devAtaDrives = s₀.devAtaDrives

namespace TablesKept

variable {s₀ s t : AtaState δ}

theorem refl : TablesKept s s := ⟨rfl, fun _ => rfl, rfl⟩

theorem trans (h : TablesKept s₀ s) (h' : TablesKept s t) : TablesKept s₀ t :=
  ⟨h'.numDevices.trans h.numDevices, fun i => (h'.base i).trans (h.base i),
    h'.devAtaDrives.trans h.devAtaDrives⟩

theorem setPorts {io : Ports δ} (h : TablesKept s₀ s) : TablesKept s₀ (s.setPorts io) :=
  ⟨h.numDevices, h.base, h.devAtaDrives⟩

theorem setSlaveSelected {i : Fin 4} {slave : Bool} (h : TablesKept s₀ s) :
    TablesKept s₀ (s.setSlaveSelected (some i) slave) := by
  refine ⟨h.numDevices, fun j => ?_, h.devAtaDrives⟩
  rw [← h.base j]
  show (if j = i then { s.ataDevices i with slaveSelected := slave } else s.ataDevices j).base = _
  by_cases hj : j = i
  · rw [if_pos hj, hj]
  · rw [if_neg hj]

variable [Bus δ] {dev : DevRef} {i : Fin 4}

theorem outb {reg : U32} {v : U8} : Keeps (TablesKept s₀) (ataOutb dev reg v) := by
  intro s u t h hs
  rw [returns_ataOutb.mp h]
  exact hs.setPorts

theorem inb {reg : U32} : Keeps (TablesKept s₀) (ataInb dev reg) := by
  intro s v t h hs
  rw [(returns_ataInb.mp h).2]
  exact hs.setPorts

theorem driveSelect {slave : Bool} :
    Keeps (TablesKept s₀) (ataDriveSelect (δ := δ) (some i) slave) := by
  refine Keeps.bind keeps_gets fun d => keeps_pure.ite (outb.bind fun _ => ?_)
  refine (Keeps.loop fun _ => inb.bind fun _ => keeps_pure.ite keeps_pure).bind fun _ => ?_
  exact keeps_modify fun _ h => h.setSlaveSelected

omit [Bus δ] in
theorem registers (h : RegistersKept s t) : TablesKept s t :=
  ⟨h.numDevices, fun i => by rw [h.ataDevices], h.devAtaDrives⟩

end TablesKept

/-! ### The table -/

/-- The drives in the order of the scan. -/
def scanOrder : List (U32 × Bool) :=
  [(0x1F0, false), (0x1F0, true), (0x170, false), (0x170, true)]

/-- The record is of the drive: its unit, and a channel at its base. -/
structure RecordOf (s : AtaState δ) (p : U32 × Bool) (info : AtaDrive) : Prop where
  channel : ∃ i : Fin 4, info.dev = some i ∧ i < s.numDevices ∧ (s.ataDevices i).base = p.1
  slave : info.slave = p.2

/-- The first records are of these drives, and the others are free. -/
structure Listed (drives : List (U32 × Bool)) (s : AtaState δ) : Prop where
  used : ∀ (k : Fin 4) p, drives[k.val]? = some p → RecordOf s p (s.devAtaDrives k)
  free : ∀ k : Fin 4, drives.length ≤ k.val → (s.devAtaDrives k).dev = none

section Table

variable {s t u : AtaState δ} {k : Fin 4} {p : U32 × Bool} {info info' : AtaDrive}
  {drives : List (U32 × Bool)}

/-- Record `k` was replaced, and the tables are otherwise as before. -/
def Replaced (k : Fin 4) (info : AtaDrive) (s t : AtaState δ) : Prop :=
  TablesKept (s.setDrive k info) t

theorem Replaced.again (h : Replaced k info s u)
    (h' : Replaced k info' u t) : Replaced k info' s t := by
  refine ⟨h'.numDevices.trans h.numDevices, fun j => (h'.base j).trans (h.base j), ?_⟩
  rw [h'.devAtaDrives]
  funext j
  show (if j = k then info' else u.devAtaDrives j) = if j = k then info' else s.devAtaDrives j
  by_cases hj : j = k
  · rw [if_pos hj, if_pos hj]
  · rw [if_neg hj, if_neg hj, h.devAtaDrives]
    exact if_neg hj

/-- A channel stays where it is. -/
theorem RecordOf.kept (h : RecordOf s p info) (hnum : s.numDevices ≤ t.numDevices)
    (hbase : ∀ i : Fin 4, i < s.numDevices → (t.ataDevices i).base = (s.ataDevices i).base) :
    RecordOf t p info := by
  obtain ⟨⟨i, hdev, hi, hb⟩, hslave⟩ := h
  exact ⟨⟨i, hdev, Nat.lt_of_lt_of_le hi hnum, (hbase i hi).trans hb⟩, hslave⟩

theorem Listed.kept (h : Listed drives s) (hnum : s.numDevices ≤ t.numDevices)
    (hbase : ∀ i : Fin 4, i < s.numDevices → (t.ataDevices i).base = (s.ataDevices i).base)
    (hdrives : t.devAtaDrives = s.devAtaDrives) : Listed drives t := by
  constructor
  · intro k p hp
    rw [hdrives]
    exact (h.used k p hp).kept hnum hbase
  · intro k hk
    rw [hdrives]
    exact h.free k hk

theorem Replaced.devAtaDrives (h : Replaced k info s t) (j : Fin 4) :
    t.devAtaDrives j = if j = k then info else s.devAtaDrives j :=
  congrFun (TablesKept.devAtaDrives h) j

/-- The record behind the last one is replaced by one without a device. -/
theorem Listed.none (h : Listed drives s) (hk : k.val = drives.length)
    (hrep : Replaced k info s t) (hdev : info.dev = none) : Listed drives t := by
  constructor
  · intro j p hp
    have hj : j.val < drives.length := (List.getElem?_eq_some_iff.mp hp).1
    have hne : j ≠ k := fun e => by rw [e] at hj; omega
    rw [hrep.devAtaDrives, if_neg hne]
    exact (h.used j p hp).kept (Nat.le_of_eq hrep.numDevices.symm) fun i _ => hrep.base i
  · intro j hj
    rw [hrep.devAtaDrives]
    by_cases he : j = k
    · rw [if_pos he, hdev]
    · rw [if_neg he]
      exact h.free j hj

/-- Or by the record of a drive. -/
theorem Listed.snoc (h : Listed drives s) (hk : k.val = drives.length)
    (hrep : Replaced k info s t) (hinfo : RecordOf t p info) : Listed (drives ++ [p]) t := by
  constructor
  · intro j q hq
    rw [hrep.devAtaDrives]
    by_cases he : j = k
    · rw [he, hk, List.getElem?_concat_length] at hq
      rw [if_pos he, ← Option.some.inj hq]
      exact hinfo
    · have hj : j.val < drives.length := by
        have hlt := (List.getElem?_eq_some_iff.mp hq).1
        have hne : j.val ≠ k.val := fun e => he (Fin.ext e)
        rw [List.length_append, List.length_singleton] at hlt
        omega
      rw [List.getElem?_append_left hj] at hq
      rw [if_neg he]
      exact (h.used j q hq).kept (Nat.le_of_eq hrep.numDevices.symm) fun i _ => hrep.base i
  · intro j hj
    rw [List.length_append, List.length_singleton] at hj
    have hne : j ≠ k := fun e => by rw [e] at hj; omega
    rw [hrep.devAtaDrives, if_neg hne]
    exact h.free j (by omega)

theorem nodup_scanOrder : scanOrder.Nodup := by decide

/-- A drive has at most one record. -/
theorem Listed.unique (h : Listed drives s) (hnodup : drives.Nodup)
    {k' i i' : Fin 4} (hk : (s.devAtaDrives k).dev = some i)
    (hk' : (s.devAtaDrives k').dev = some i')
    (hbase : (s.ataDevices i).base = (s.ataDevices i').base)
    (hslave : (s.devAtaDrives k).slave = (s.devAtaDrives k').slave) : k = k' := by
  have entry : ∀ (k i : Fin 4), (s.devAtaDrives k).dev = some i →
      drives[k.val]? = some ((s.ataDevices i).base, (s.devAtaDrives k).slave) := by
    intro k i hk
    by_cases hlt : k.val < drives.length
    · have hget := List.getElem?_eq_getElem hlt
      obtain ⟨⟨j, hdev, -, hb⟩, hs⟩ := h.used k _ hget
      obtain rfl := Option.some.inj (hk.symm.trans hdev)
      rw [hget, hb, hs]
    · have hnone := h.free k (Nat.le_of_not_lt hlt)
      rw [hk] at hnone
      cases hnone
  have hget := entry k i hk
  have hget' := entry k' i' hk'
  rw [← hbase, ← hslave] at hget'
  obtain ⟨hlt, -⟩ := List.getElem?_eq_some_iff.mp hget
  exact Fin.ext ((List.getElem?_inj hlt hnodup).mp (hget.trans hget'.symm))

end Table

/-! ### One drive -/

section Scan

variable [Bus δ] {s t u : AtaState δ} {i k : Fin 4} {slave : Bool}

/-- The flags of a record say which unit it is. -/
theorem slave_identifyDrive (dev : DevRef) (slave : Bool) (ident : Nat → U16) :
    (identifyDrive dev slave ident).slave = slave := by
  obtain ⟨-, -, hbits⟩ :=
    flags_bits (identifyBlocks ident).2 (decide (identifyBlocks48 ident > 0)) slave
  simp only [decide_eq_true_eq] at hbits
  rw [AtaDrive.slave, Bool.eq_iff_iff, decide_eq_true_iff]
  exact hbits

/-- The command clears the device of the record. -/
theorem replaced_command (h : (identifyCommand (some i) slave k).Returns s () t) :
    Replaced k { s.devAtaDrives k with dev := none } s t := by
  obtain ⟨_, u, hset, h⟩ := returns_bind.mp h
  obtain rfl := returns_modify.mp hset
  have hrest : Keeps (TablesKept (s.setDrive k { s.devAtaDrives k with dev := none })) (do
      ataDriveSelect (some i) slave
      ataOutb (some i) 0x206 0x2
      ataOutb (some i) ataSectorCount 0
      ataOutb (some i) ataLbaLo 0
      ataOutb (some i) ataLbaMid 0
      ataOutb (some i) ataLbaHi 0
      ataOutb (some i) ataCommand ataCmdIdentify) :=
    TablesKept.driveSelect.bind fun _ => TablesKept.outb.bind fun _ => TablesKept.outb.bind
      fun _ => TablesKept.outb.bind fun _ => TablesKept.outb.bind fun _ => TablesKept.outb.bind
        fun _ => TablesKept.outb
  exact hrest _ _ _ h .refl

/-- The record afterwards has the drive, if there is one. -/
theorem identify_spec {found : Bool} (h : (ataIdentify (some i) slave k).Returns s found t) :
    ∃ info, Replaced k info s t ∧
      if found then info.dev = some i ∧ info.slave = slave else info.dev = none := by
  rw [ataIdentify_eq] at h
  obtain ⟨_, u, hcommand, hreply⟩ := returns_bind.mp h
  have hcleared := replaced_command hcommand
  obtain ⟨vs, v, d, -, hcase⟩ := returns_identifyReply.mp hreply
  -- without a reply only status values were read
  have hsilent : ∀ {d us}, t = polledAt u (statusPort (u.device (some i)).base) d us →
      found = false → ∃ info, Replaced k info s t ∧
        if found then info.dev = some i ∧ info.slave = slave else info.dev = none := by
    rintro d us rfl rfl
    exact ⟨_, hcleared.trans (.setPorts .refl), rfl⟩
  by_cases hzero : v = 0
  · rw [if_pos hzero] at hcase
    exact hsilent hcase.2 hcase.1
  · rw [if_neg hzero] at hcase
    obtain ⟨vs', v', d', -, hcase⟩ := hcase
    by_cases haccept : IdentifyAccept v'
    · rw [if_pos haccept] at hcase
      obtain ⟨rfl, rfl⟩ := hcase
      have hstored : Replaced k (identifyDrive (some i) slave fun j =>
          (wordsFrom (dataPort (u.device (some i)).base) 256 d').getD j 0) u
          (identified u (some i) slave k d' (vs ++ [v] ++ (vs' ++ [v']))) :=
        ⟨rfl, fun _ => rfl, rfl⟩
      exact ⟨_, hcleared.again hstored, rfl, slave_identifyDrive _ _ _⟩
    · rw [if_neg haccept] at hcase
      exact hsilent hcase.2 hcase.1

/-! ### The scan -/

/-- The drives after one was looked for. -/
def foundDrives (drives : List (U32 × Bool)) (p : U32 × Bool) (found : Bool) :
    List (U32 × Bool) := drives ++ if found then [p] else []

theorem scanDrive_spec {drives : List (U32 × Bool)} {base : U32} {r : Option Nat}
    (hlist : Listed drives s) (hlen : drives.length < 4) (hi : i < s.numDevices)
    (hbase : (s.ataDevices i).base = base)
    (h : (scanDrive (some i) slave drives.length).Returns s r t) :
    ∃ found, r = some (foundDrives drives (base, slave) found).length ∧
      Listed (foundDrives drives (base, slave) found) t ∧ t.numDevices = s.numDevices ∧
      (t.ataDevices i).base = base := by
  rw [scanDrive, dif_pos hlen] at h
  obtain ⟨found, u, hidentify, h⟩ := returns_bind.mp h
  obtain ⟨rfl, rfl⟩ := returns_pure.mp h
  obtain ⟨info, hrep, hinfo⟩ := identify_spec hidentify
  refine ⟨found, ?_, ?_, hrep.numDevices, (hrep.base i).trans hbase⟩
  · cases found <;> simp [foundDrives]
  · cases found with
    | false =>
        rw [foundDrives, if_neg Bool.false_ne_true, List.append_nil]
        exact hlist.none rfl hrep hinfo
    | true =>
        rw [foundDrives, if_pos rfl]
        refine hlist.snoc rfl hrep ⟨⟨i, hinfo.1, ?_, (hrep.base i).trans hbase⟩, hinfo.2⟩
        rw [hrep.numDevices]
        exact hi

/-- `ata_init` adds at most one channel. -/
theorem init_spec {base irq : U32} {dev : DevRef} (h : (ataInit base irq).Returns s dev t) :
    s.numDevices ≤ t.numDevices ∧
      (∀ i : Fin 4, i < s.numDevices → (t.ataDevices i).base = (s.ataDevices i).base) ∧
      t.devAtaDrives = s.devAtaDrives ∧
      ∀ i, dev = some i → i < t.numDevices ∧ (t.ataDevices i).base = base := by
  obtain ⟨n, s₁, hget, h⟩ := returns_bind.mp h
  obtain ⟨rfl, hs₁⟩ := returns_gets.mp hget
  rw [hs₁] at h
  split at h
  · rename_i hlt
    obtain ⟨_, s₂, hcount, h⟩ := returns_bind.mp h
    obtain ⟨_, s₃, hset, h⟩ := returns_bind.mp h
    obtain ⟨detected, s₄, hdetect, h⟩ := returns_bind.mp h
    rw [returns_modify] at hcount hset
    -- the new element of `ata_devices`, and the others as they were
    have hnum : s₃.numDevices = s.numDevices + 1 := by rw [hset, hcount]; rfl
    have hdrives : s₃.devAtaDrives = s.devAtaDrives := by rw [hset, hcount]; rfl
    have hnew : (s₃.ataDevices ⟨s.numDevices, hlt⟩).base = base := by
      rw [hset]
      exact congrArg DevAta.base (if_pos rfl)
    have hold : ∀ i : Fin 4, i < s.numDevices →
        (s₃.ataDevices i).base = (s.ataDevices i).base := by
      intro i hi
      have hne : i ≠ ⟨s.numDevices, hlt⟩ := fun e => by rw [e] at hi; exact Nat.lt_irrefl _ hi
      rw [hset, hcount]
      exact congrArg DevAta.base (if_neg hne)
    obtain ⟨io, rfl, -⟩ := returns_detectController hdetect
    have hports : TablesKept s₃ (s₃.setPorts io) := .setPorts .refl
    cases detected with
    | true =>
        obtain ⟨_, s₅, htrue, h⟩ := returns_bind.mp h
        obtain ⟨_, s₆, hselect, h⟩ := returns_bind.mp h
        obtain ⟨rfl, rfl⟩ := returns_pure.mp h
        obtain rfl := returns_modify.mp htrue
        have hkept : TablesKept s₃ t :=
          TablesKept.driveSelect _ _ _ hselect hports.setSlaveSelected
        refine ⟨?_, ?_, hkept.devAtaDrives.trans hdrives, ?_⟩
        · rw [hkept.numDevices, hnum]
          exact Nat.le_succ _
        · intro i hi
          rw [hkept.base, hold i hi]
        · rintro i ⟨⟩
          rw [hkept.numDevices, hnum, hkept.base]
          exact ⟨Nat.lt_succ_self _, hnew⟩
    | false =>
        obtain ⟨_, s₅, hback, h⟩ := returns_bind.mp h
        obtain ⟨rfl, rfl⟩ := returns_pure.mp h
        obtain rfl := returns_modify.mp hback
        refine ⟨?_, hold, hdrives, fun i hi => nomatch hi⟩
        show s.numDevices ≤ s₃.numDevices - 1
        omega
  · obtain ⟨rfl, rfl⟩ := returns_pure.mp h
    exact ⟨Nat.le_refl _, fun _ _ => rfl, rfl, fun i hi => nomatch hi⟩

/-- What the scan of one channel adds. -/
theorem scanChannel_spec {drives : List (U32 × Bool)} {base irq : U32} {r : Option Nat}
    (hlist : Listed drives s) (hlen : drives.length < 3)
    (h : (scanChannel base irq drives.length).Returns s r t) :
    ∃ more, more.Sublist [(base, false), (base, true)] ∧ r = some (drives ++ more).length ∧
      Listed (drives ++ more) t := by
  obtain ⟨dev, u, hinit, h⟩ := returns_bind.mp h
  obtain ⟨hnum, hold, hdrives, hnew⟩ := init_spec hinit
  have hlist := hlist.kept hnum hold hdrives
  cases dev with
  | none =>
      obtain ⟨rfl, rfl⟩ := returns_pure.mp h
      refine ⟨[], List.nil_sublist _, ?_, ?_⟩
      · rw [List.append_nil]
      · rwa [List.append_nil]
  | some i =>
      obtain ⟨hi, hbase⟩ := hnew i rfl
      obtain ⟨r₁, u₁, hmaster, hslave⟩ := returns_bind.mp h
      obtain ⟨found, rfl, hlist₁, hnum₁, hbase₁⟩ :=
        scanDrive_spec hlist (by omega) hi hbase hmaster
      have hlen₁ : (foundDrives drives (base, false) found).length < 4 := by
        cases found <;> simp [foundDrives] <;> omega
      obtain ⟨found', rfl, hlist₂, -, -⟩ :=
        scanDrive_spec hlist₁ hlen₁ (by rw [hnum₁]; exact hi) hbase₁ hslave
      refine ⟨(if found then [(base, false)] else []) ++ if found' then [(base, true)] else [],
        ?_, ?_, ?_⟩
      · cases found <;> cases found' <;> simp
      · rw [foundDrives, foundDrives, List.append_assoc]
      · rwa [foundDrives, foundDrives, List.append_assoc] at hlist₂

/-- The table after `hd_init`, for any devices; at the start all records are free. -/
theorem hd_init_spec {r : Option Nat} (hfree : ∀ k, (s.devAtaDrives k).dev = none)
    (h : hdInit.Returns s r t) :
    ∃ drives : List (U32 × Bool), drives.Sublist scanOrder ∧ r = some drives.length ∧
      Listed drives t ∧
      ∀ k k' i i', (t.devAtaDrives k).dev = some i → (t.devAtaDrives k').dev = some i' →
        (t.ataDevices i).base = (t.ataDevices i').base →
        (t.devAtaDrives k).slave = (t.devAtaDrives k').slave → k = k' := by
  have hempty : Listed [] s := ⟨fun _ _ hp => (nomatch hp), fun k _ => hfree k⟩
  obtain ⟨r₁, u, hprimary, h⟩ := returns_bind.mp h
  obtain ⟨first, hsub₁, rfl, hlist₁⟩ := scanChannel_spec hempty (by simp) hprimary
  rw [List.nil_append] at h hlist₁
  have hlen : first.length ≤ 2 := hsub₁.length_le
  obtain ⟨second, hsub₂, rfl, hlist₂⟩ := scanChannel_spec hlist₁ (by omega) h
  have hsub : (first ++ second).Sublist scanOrder := hsub₁.append hsub₂
  refine ⟨first ++ second, hsub, rfl, hlist₂, ?_⟩
  intro k k' i i' hk hk' hbase hslave
  exact hlist₂.unique (hsub.nodup nodup_scanOrder) hk hk' hbase hslave

end Scan

/-! ### One channel with two drives -/

/-- A primary channel whose drives are always ready, and send the same word 256 times. -/
structure ReadyChannel where
  count : U8

instance : Bus ReadyChannel where
  inb port d := (if port = 0x1F7 then 0x58 else if port = 0x1F2 then d.count else 0xFF, d)
  inw _ d := (1, d)
  outb port v d := if port = 0x1F2 then ⟨v⟩ else d
  outw _ _ d := d
  ticks d := (0, d)

/-- The statics at reset. -/
def AtaState.atReset (d : ReadyChannel) : AtaState ReadyChannel where
  machine := ⟨⟨d, []⟩, .zeros⟩
  ataDevices := fun _ => ⟨0, 0, false⟩
  numDevices := 0
  devAtaDrives := fun _ => .empty

theorem hdInit_atReset :
    ((hdInit.run 300 (AtaState.atReset ⟨0⟩)).map fun r => r.1) = some (some 2) := by
  decide +kernel

/-- Two drives are found, and the third record is free. -/
theorem hd_init_spec_two :
    ∃ t, hdInit.Returns (AtaState.atReset ⟨0⟩) (some 2) t ∧ (t.devAtaDrives 2).dev = none := by
  obtain ⟨⟨r, t⟩, hrun, hr⟩ := Option.map_eq_some_iff.mp hdInit_atReset
  obtain rfl : r = some 2 := hr
  have hreturns : hdInit.Returns (AtaState.atReset ⟨0⟩) (some 2) t := ⟨300, hrun⟩
  obtain ⟨drives, -, hlen, hlist, -⟩ := hd_init_spec (fun _ => rfl) hreturns
  exact ⟨t, hreturns, hlist.free 2 (Nat.le_of_eq (Option.some.inj hlen).symm)⟩

end MyBios
