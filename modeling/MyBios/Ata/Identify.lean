import MyBios.Ata.Polling

/-!
Which drives `ata_identify` reports.

After the command there are two polling loops. The first waits for BSY to clear and
gives up on status 0. The second waits for DRQ and gives up on ERR, but status 0 ends
it as well, and DRQ ends it whatever BSY and ERR are.

* `returns_identifyReply`: the two loops and the words, case by case.
* `identifyHonest_iff`: a drive is reported only on a good status, but for the drives
  that end the second loop without one.
-/

namespace MyBios

open Prog Poll AtaState

/-- The drive has the reply: BSY clear, DRQ set, ERR clear. -/
def IdentifyReady (v : U8) : Prop :=
  v &&& ataStatusBsy = 0 ∧ v &&& ataStatusDrq ≠ 0 ∧ v &&& ataStatusErr = 0

variable {δ : Type} [Bus δ] {s t : AtaState δ} {dev : DevRef} {slave : Bool} {info : Fin 4}

/-! ### The program in two parts -/

/-- `ata_identify` up to the command. -/
def identifyCommand (dev : DevRef) (slave : Bool) (info : Fin 4) : Prog (AtaState δ) Unit := do
  modify fun s => s.setDrive info { s.devAtaDrives info with dev := none }
  ataDriveSelect dev slave
  ataOutb dev 0x206 0x2
  ataOutb dev ataSectorCount 0
  ataOutb dev ataLbaLo 0
  ataOutb dev ataLbaMid 0
  ataOutb dev ataLbaHi 0
  ataOutb dev ataCommand ataCmdIdentify

/-- `ata_identify` after the command. -/
def identifyReply (dev : DevRef) (slave : Bool) (info : Fin 4) : Prog (AtaState δ) Bool := do
  let s ← ataWait dev
  if s = 0 then pure false
  else do
    let ready ← identifyWait dev
    if ready then do
      let words ← identifyRead dev
      modify (AtaState.setDrive info (identifyDrive dev slave fun i => words.getD i 0))
      pure true
    else pure false

theorem ataIdentify_eq :
    ataIdentify (δ := δ) dev slave info =
      identifyCommand dev slave info >>= fun _ => identifyReply dev slave info := by
  unfold ataIdentify identifyCommand
  simp only [Prog.bind_assoc]
  rfl

/-! ### The command -/

omit [Bus δ] in
theorem devAtaDrives_setSlaveSelected :
    (s.setSlaveSelected dev slave).devAtaDrives = s.devAtaDrives := by
  cases dev <;> rfl

theorem keeps_outb {reg : U32} {v : U8} :
    Keeps (fun s : AtaState δ => (s.devAtaDrives info).dev = none) (ataOutb dev reg v) := by
  intro s u t h hs
  rw [returns_ataOutb.mp h]
  exact hs

theorem keeps_driveSelect :
    Keeps (fun s : AtaState δ => (s.devAtaDrives info).dev = none) (ataDriveSelect dev slave) := by
  have hstatus : Keeps (fun s : AtaState δ => (s.devAtaDrives info).dev = none) (status dev) := by
    intro s v t h hs
    rw [(returns_ataInb.mp h).2]
    exact hs
  have hget : Keeps (fun s : AtaState δ => (s.devAtaDrives info).dev = none)
      (gets (AtaState.device dev)) := by
    intro s d t h hs
    rw [(returns_gets.mp h).2]
    exact hs
  refine hget.bind fun d => keeps_pure.ite (keeps_outb.bind fun _ => ?_)
  refine (Keeps.loop fun _ => hstatus.bind fun _ => keeps_pure.ite keeps_pure).bind fun _ => ?_
  apply keeps_modify
  intro s hs
  rw [devAtaDrives_setSlaveSelected]
  exact hs

/-- After the command the record has no device. -/
theorem dev_identifyCommand (h : (identifyCommand dev slave info).Returns s () t) :
    (t.devAtaDrives info).dev = none := by
  obtain ⟨_, s₁, hset, h⟩ := returns_bind.mp h
  have hcleared : (s₁.devAtaDrives info).dev = none := by
    rw [returns_modify.mp hset]
    simp [AtaState.setDrive]
  have hrest : Keeps (fun s : AtaState δ => (s.devAtaDrives info).dev = none) (do
      ataDriveSelect dev slave
      ataOutb dev 0x206 0x2
      ataOutb dev ataSectorCount 0
      ataOutb dev ataLbaLo 0
      ataOutb dev ataLbaMid 0
      ataOutb dev ataLbaHi 0
      ataOutb dev ataCommand ataCmdIdentify) :=
    keeps_driveSelect.bind fun _ => keeps_outb.bind fun _ => keeps_outb.bind fun _ =>
      keeps_outb.bind fun _ => keeps_outb.bind fun _ => keeps_outb.bind fun _ => keeps_outb
  exact hrest s₁ () t h hcleared

/-! ### The reply -/

/-- The state after `n` words were read. -/
def wordsReadAt (s : AtaState δ) (dev : DevRef) (n : Nat) : AtaState δ :=
  s.setPorts ⟨afterWords (dataPort (s.device dev).base) n s.machine.io.dev,
    s.log ++ (wordsFrom (dataPort (s.device dev).base) n s.machine.io.dev).map
      (.inw (dataPort (s.device dev).base))⟩

theorem identifyWords_total (s : AtaState δ) (dev : DevRef) (n : Nat) :
    Total (repeatN (fun words => do
      let word ← ataInw dev ataData
      pure (words ++ [word])) n []) s fun words t =>
        words = wordsFrom (dataPort (s.device dev).base) n s.machine.io.dev ∧
          t = wordsReadAt s dev n := by
  refine Total.repeatN (I := fun k words t =>
    words = wordsFrom (dataPort (s.device dev).base) k s.machine.io.dev ∧
      t = wordsReadAt s dev k) ?_ ⟨rfl, ?_⟩
  · rintro k words u - ⟨rfl, rfl⟩
    refine ⟨_, _, .bind (returns_ataInw.mpr ⟨rfl, rfl⟩) (returns_pure.mpr ⟨rfl, rfl⟩), ?_, ?_⟩
    · rw [wordsReadAt, device_setPorts]
      rfl
    · unfold wordsReadAt
      rw [device_setPorts, log_setPorts, io_setPorts, afterWords_succ, wordsFrom,
        List.map_append, ← List.append_assoc]
      rfl
  · rw [wordsReadAt, wordsFrom, List.map_nil, List.append_nil]
    rfl

theorem returns_identifyRead {words : List U16} :
    (identifyRead dev).Returns s words t ↔
      words = wordsFrom (dataPort (s.device dev).base) 256 s.machine.io.dev ∧
        t = wordsReadAt s dev 256 := by
  have hread := identifyWords_total s dev 256
  constructor
  · exact hread.returns
  · rintro ⟨hwords, ht⟩
    obtain ⟨words', t', h, hwords', ht'⟩ := hread
    rw [hwords, ht, ← hwords', ← ht']
    exact h

omit [Bus δ] in
theorem polledAt_polledAt {port : U16} {d d' : δ} {us vs : List U8} :
    polledAt (polledAt s port d us) port d' vs = polledAt s port d' (us ++ vs) := by
  unfold polledAt
  rw [List.map_append, ← List.append_assoc]
  rfl

/-- The state in which the reply was read: after the status values `vs`, and with the
record filled from the words. -/
def identified (s : AtaState δ) (dev : DevRef) (slave : Bool) (info : Fin 4) (d : δ)
    (vs : List U8) : AtaState δ :=
  (wordsReadAt (polledAt s (statusPort (s.device dev).base) d vs) dev 256).setDrive info
    (identifyDrive dev slave
      fun i => (wordsFrom (dataPort (s.device dev).base) 256 d).getD i 0)

/-- Reading the words and filling the record. -/
theorem returns_identifyStore {d : δ} {us : List U8} {b : Bool} :
    (do
      let words ← identifyRead dev
      modify (AtaState.setDrive info (identifyDrive dev slave fun i => words.getD i 0))
      pure true : Prog (AtaState δ) Bool).Returns
        (polledAt s (statusPort (s.device dev).base) d us) b t ↔
      b = true ∧ t = identified s dev slave info d us := by
  have hdevice : (polledAt s (statusPort (s.device dev).base) d us).device dev = s.device dev :=
    device_setPorts
  have hdrive : (polledAt s (statusPort (s.device dev).base) d us).machine.io.dev = d := rfl
  simp only [returns_bind, returns_identifyRead, returns_modify, returns_pure, hdevice, hdrive]
  constructor
  · rintro ⟨words, u, ⟨hwords, hu⟩, _, w, hw, hb, ht⟩
    refine ⟨hb, ?_⟩
    rw [ht, hw, hu, hwords, identified]
  · rintro ⟨hb, ht⟩
    refine ⟨_, _, ⟨rfl, rfl⟩, (), _, rfl, hb, ?_⟩
    rw [ht, identified]

/-- The second loop and what follows it. -/
theorem returns_identifySecond {d : δ} {us : List U8} {b : Bool} :
    (do
      let ready ← identifyWait dev
      if ready then do
        let words ← identifyRead dev
        modify (AtaState.setDrive info (identifyDrive dev slave fun i => words.getD i 0))
        pure true
      else pure false : Prog (AtaState δ) Bool).Returns
        (polledAt s (statusPort (s.device dev).base) d us) b t ↔
      ∃ vs v d', Polled (Bus.inb (statusPort (s.device dev).base)) IdentifyStop d vs v d' ∧
        if IdentifyAccept v then b = true ∧ t = identified s dev slave info d' (us ++ (vs ++ [v]))
        else b = false ∧
          t = polledAt s (statusPort (s.device dev).base) d' (us ++ (vs ++ [v])) := by
  have hdevice : (polledAt s (statusPort (s.device dev).base) d us).device dev = s.device dev :=
    device_setPorts
  have hdrive : (polledAt s (statusPort (s.device dev).base) d us).machine.io.dev = d := rfl
  simp only [returns_bind, returns_identifyWait, hdevice, hdrive]
  constructor
  · rintro ⟨ready, u, ⟨vs, v, d', hpolled, rfl, rfl⟩, h⟩
    refine ⟨vs, v, d', hpolled, ?_⟩
    rw [polledAt_polledAt] at h
    by_cases haccept : IdentifyAccept v
    · rw [if_pos haccept]
      rw [if_pos (decide_eq_true haccept)] at h
      exact returns_identifyStore.mp h
    · rw [if_neg haccept]
      rw [if_neg (by simpa using haccept)] at h
      exact returns_pure.mp h
  · rintro ⟨vs, v, d', hpolled, h⟩
    refine ⟨_, _, ⟨vs, v, d', hpolled, rfl, rfl⟩, ?_⟩
    rw [polledAt_polledAt]
    by_cases haccept : IdentifyAccept v
    · rw [if_pos haccept] at h
      rw [if_pos (decide_eq_true haccept)]
      exact returns_identifyStore.mpr h
    · rw [if_neg haccept] at h
      rw [if_neg (by simpa using haccept)]
      exact returns_pure.mpr h

/-- The reply, case by case. -/
theorem returns_identifyReply {b : Bool} :
    (identifyReply dev slave info).Returns s b t ↔
      ∃ vs v d, Polled (Bus.inb (statusPort (s.device dev).base)) NotBusy s.machine.io.dev vs v d ∧
        if v = 0 then b = false ∧ t = polledAt s (statusPort (s.device dev).base) d (vs ++ [v])
        else ∃ vs' v' d',
          Polled (Bus.inb (statusPort (s.device dev).base)) IdentifyStop d vs' v' d' ∧
          if IdentifyAccept v' then
            b = true ∧ t = identified s dev slave info d' (vs ++ [v] ++ (vs' ++ [v']))
          else b = false ∧
            t = polledAt s (statusPort (s.device dev).base) d' (vs ++ [v] ++ (vs' ++ [v'])) := by
  rw [identifyReply, returns_bind]
  constructor
  · rintro ⟨v, u, hwait, h⟩
    obtain ⟨vs, d, hpolled, rfl⟩ := returns_ataWait.mp hwait
    refine ⟨vs, v, d, hpolled, ?_⟩
    by_cases hzero : v = 0
    · rw [if_pos hzero]
      rw [if_pos hzero] at h
      exact returns_pure.mp h
    · rw [if_neg hzero]
      rw [if_neg hzero] at h
      exact returns_identifySecond.mp h
  · rintro ⟨vs, v, d, hpolled, h⟩
    refine ⟨v, _, returns_ataWait.mpr ⟨vs, d, hpolled, rfl⟩, ?_⟩
    by_cases hzero : v = 0
    · rw [if_pos hzero] at h
      rw [if_pos hzero]
      exact returns_pure.mpr h
    · rw [if_neg hzero] at h
      rw [if_neg hzero]
      exact returns_identifySecond.mpr h

/-! ### Which drives are reported -/

/-- The accesses after the command: some status said that the reply was there, and then
the 256 words were read. -/
def ReplySeen (base : U32) (data : List PortEvent) : Prop :=
  ∃ (pre : List PortEvent) (words : List U16), data = pre ++ words.map (.inw (dataPort base)) ∧
    words.length = 256 ∧ ∃ v, .inb (statusPort base) v ∈ pre ∧ IdentifyReady v

/-- From state `s` after the command: true and a device only if the reply was there, and
otherwise false and no device. -/
structure IdentifyHonest (dev : DevRef) (info : Fin 4) (s : AtaState δ) (b : Bool)
    (t : AtaState δ) : Prop where
  accepted : b = true ∧ (t.devAtaDrives info).dev ≠ none →
    ReplySeen (s.device dev).base (t.log.drop s.log.length)
  refused : ¬ ReplySeen (s.device dev).base (t.log.drop s.log.length) →
    b = false ∧ (t.devAtaDrives info).dev = none

/-- If the first status that is not busy is not 0, and the first status after it that
ends the second loop is taken for a reply, one of the two says that the reply is there. -/
def ReadyIfAccepted (base : U32) (d : δ) : Prop :=
  ∀ vs v d', Polled (Bus.inb (statusPort base)) NotBusy d vs v d' → v ≠ 0 →
    ∀ vs' v' d'', Polled (Bus.inb (statusPort base)) IdentifyStop d' vs' v' d'' →
      IdentifyAccept v' → IdentifyReady v ∨ IdentifyReady v'

omit [Bus δ] in
/-- Refusing a drive is honest. -/
theorem honest_of_refused {b : Bool} (hb : b = false) (ht : (t.devAtaDrives info).dev = none) :
    IdentifyHonest dev info s b t := by
  refine ⟨?_, fun _ => ⟨hb, ht⟩⟩
  rintro ⟨htrue, -⟩
  rw [hb] at htrue
  cases htrue

omit [Bus δ] in
/-- Accepting one is honest if the reply was there. -/
theorem honest_accepted_iff :
    IdentifyHonest dev info s true t ↔
      ReplySeen (s.device dev).base (t.log.drop s.log.length) := by
  constructor
  · intro h
    by_contra hnot
    exact absurd (h.refused hnot).1 (by decide)
  · intro hseen
    exact ⟨fun _ => hseen, fun hnot => absurd hseen hnot⟩

/-- The accesses of a reply that was read. -/
theorem log_identified {d : δ} {us : List U8} :
    (identified s dev slave info d us).log =
      s.log ++ (us.map (.inb (statusPort (s.device dev).base)) ++
        (wordsFrom (dataPort (s.device dev).base) 256 d).map
          (.inw (dataPort (s.device dev).base))) := by
  have hdevice : (polledAt s (statusPort (s.device dev).base) d us).device dev = s.device dev :=
    device_setPorts
  rw [← List.append_assoc, ← hdevice]
  rfl

/-- What was seen in the two loops. -/
theorem replySeen_iff {base : U32} {d₀ d d' d₁ : δ} {vs vs' : List U8} {v v' : U8}
    (h : Polled (Bus.inb (statusPort base)) NotBusy d₀ vs v d)
    (h' : Polled (Bus.inb (statusPort base)) IdentifyStop d vs' v' d') :
    ReplySeen base ((vs ++ [v] ++ (vs' ++ [v'])).map (.inb (statusPort base)) ++
        (wordsFrom (dataPort base) 256 d₁).map (.inw (dataPort base))) ↔
      IdentifyReady v ∨ IdentifyReady v' := by
  have hfirst := h.exists_iff (P := IdentifyReady) fun _ hready => hready.1
  have hsecond := h'.exists_iff (P := IdentifyReady) fun _ hready => .inr (.inl hready.2.1)
  constructor
  · rintro ⟨pre, words, hdata, hlen, u, hu, hready⟩
    have hcut := List.append_inj' hdata (by simp [hlen])
    rw [← hcut.1] at hu
    obtain ⟨u', hu', heq⟩ := List.mem_map.mp hu
    cases heq
    rcases List.mem_append.mp hu' with hu' | hu'
    · exact .inl (hfirst.mp ⟨u, hu', hready⟩)
    · exact .inr (hsecond.mp ⟨u, hu', hready⟩)
  · intro hready
    refine ⟨_, _, rfl, length_wordsFrom, ?_⟩
    rcases hready with hready | hready
    · obtain ⟨u, hu, hready⟩ := hfirst.mpr hready
      exact ⟨u, List.mem_map.mpr ⟨u, List.mem_append_left _ hu, rfl⟩, hready⟩
    · obtain ⟨u, hu, hready⟩ := hsecond.mpr hready
      exact ⟨u, List.mem_map.mpr ⟨u, List.mem_append_right _ hu, rfl⟩, hready⟩

/-- A drive is reported honestly exactly when it is ready if it is accepted. -/
theorem identifyHonest_iff {s₁ : AtaState δ} {b : Bool}
    (hcommand : (identifyCommand dev slave info).Returns s () s₁)
    (h : (ataIdentify dev slave info).Returns s b t) :
    IdentifyHonest dev info s₁ b t ↔
      ReadyIfAccepted (s₁.device dev).base s₁.machine.io.dev := by
  have hnone := dev_identifyCommand hcommand
  rw [ataIdentify_eq, hcommand.bind_iff] at h
  obtain ⟨vs, v, d, hpolled, h⟩ := returns_identifyReply.mp h
  by_cases hzero : v = 0
  · rw [if_pos hzero] at h
    obtain ⟨hb, rfl⟩ := h
    refine iff_of_true (honest_of_refused hb hnone) ?_
    intro vs₁ v₁ d₁ hpolled₁ hne
    obtain ⟨-, rfl, -⟩ := hpolled.functional hpolled₁
    exact absurd hzero hne
  · rw [if_neg hzero] at h
    obtain ⟨vs', v', d', hpolled', h⟩ := h
    by_cases haccept : IdentifyAccept v'
    · rw [if_pos haccept] at h
      obtain ⟨rfl, rfl⟩ := h
      rw [honest_accepted_iff, log_identified, List.drop_left, replySeen_iff hpolled hpolled']
      constructor
      · intro hready vs₁ v₁ d₁ hpolled₁ _ vs₂ v₂ d₂ hpolled₂ _
        obtain ⟨-, rfl, rfl⟩ := hpolled.functional hpolled₁
        obtain ⟨-, rfl, -⟩ := hpolled'.functional hpolled₂
        exact hready
      · intro hready
        exact hready vs v d hpolled hzero vs' v' d' hpolled' haccept
    · rw [if_neg haccept] at h
      obtain ⟨hb, rfl⟩ := h
      refine iff_of_true (honest_of_refused hb hnone) ?_
      intro vs₁ v₁ d₁ hpolled₁ _ vs₂ v₂ d₂ hpolled₂ haccept₂
      obtain ⟨-, rfl, rfl⟩ := hpolled.functional hpolled₁
      obtain ⟨-, rfl, -⟩ := hpolled'.functional hpolled₂
      exact absurd haccept₂ haccept

/-! ### A scripted drive -/

/-- A drive that presents given status values and words, and then zeros. -/
structure ScriptedDrive where
  statuses : List U8
  words : List U16

instance : Bus ScriptedDrive where
  inb _ d := (d.statuses.headD 0, { d with statuses := d.statuses.tail })
  inw _ d := (d.words.headD 0, { d with words := d.words.tail })
  outb _ _ d := d
  outw _ _ d := d
  ticks d := (0, d)

/-- The scripted drive as the selected one of the only channel. -/
def AtaState.scripted (d : ScriptedDrive) : AtaState ScriptedDrive where
  machine := ⟨⟨d, []⟩, .zeros⟩
  ataDevices := fun _ => ⟨0x1F0, 14, false⟩
  numDevices := 1
  devAtaDrives := fun _ => .empty

theorem scripted_command (d : ScriptedDrive) :
    ∃ s₁, (identifyCommand (some 0) false 0).Returns (.scripted d) () s₁ ∧
      s₁.machine.io.dev = d ∧ (s₁.device (some 0)).base = 0x1F0 := by
  have hselect : ∀ s : AtaState ScriptedDrive, (s.ataDevices 0).slaveSelected = false →
      (ataDriveSelect (some 0) false).Returns s () s := by
    intro s hs
    refine .bind (returns_gets.mpr ⟨rfl, rfl⟩) ?_
    rw [if_pos (show (s.device (some 0)).slaveSelected = false from hs)]
    exact returns_pure.mpr ⟨rfl, rfl⟩
  have hout : ∀ (s : AtaState ScriptedDrive) (reg : U32) (v : U8),
      (ataOutb (some 0) reg v).Returns s () _ := fun _ _ _ => returns_ataOutb.mpr rfl
  exact ⟨_, .bind (a := ()) (returns_modify.mpr rfl) (.bind (hselect _ rfl) (.bind (hout _ _ _)
    (.bind (hout _ _ _) (.bind (hout _ _ _) (.bind (hout _ _ _) (.bind (hout _ _ _)
      (hout _ _ _))))))), rfl, rfl⟩

/-- A drive that presents `v`, which is not busy, and then `v'`, which is accepted. -/
theorem scripted_identify (v v' : U8) (words : List U16) (hv : NotBusy v) (hne : v ≠ 0)
    (haccept : IdentifyAccept v') :
    ∃ s₁ t, (identifyCommand (some 0) false 0).Returns (.scripted ⟨[v, v'], words⟩) () s₁ ∧
      s₁.machine.io.dev = ⟨[v, v'], words⟩ ∧ (s₁.device (some 0)).base = 0x1F0 ∧
      (ataIdentify (some 0) false 0).Returns (.scripted ⟨[v, v'], words⟩) true t ∧
      t = identified s₁ (some 0) false 0 ⟨[], words⟩ [v, v'] := by
  obtain ⟨s₁, hcommand, hdrive, hbase⟩ := scripted_command ⟨[v, v'], words⟩
  have hstop : IdentifyStop v' := haccept.elim .inl fun hdrq => .inr (.inl hdrq)
  have hfirst : Polled (Bus.inb (statusPort (s₁.device (some 0)).base)) NotBusy
      s₁.machine.io.dev [] v ⟨[v'], words⟩ := by
    rw [hdrive]
    exact .last hv
  have hsecond : Polled (Bus.inb (statusPort (s₁.device (some 0)).base)) IdentifyStop
      ⟨[v'], words⟩ [] v' (⟨[], words⟩ : ScriptedDrive) :=
    .last hstop
  refine ⟨s₁, _, hcommand, hdrive, hbase, ?_, rfl⟩
  rw [ataIdentify_eq]
  refine hcommand.bind (returns_identifyReply.mpr ⟨[], v, _, hfirst, ?_⟩)
  rw [if_neg hne]
  refine ⟨[], v', _, hsecond, ?_⟩
  rw [if_pos haccept]
  exact ⟨rfl, rfl⟩

/-- Status 0x58 twice: the reply is there. -/
theorem identifyHonest_iff_ready :
    ∃ s₁ t, (ataIdentify (some 0) false 0).Returns (.scripted ⟨[0x58, 0x58], []⟩) true t ∧
      IdentifyHonest (some 0) 0 s₁ true t := by
  obtain ⟨s₁, t, hcommand, hdrive, -, h, -⟩ :=
    scripted_identify 0x58 0x58 [] (by decide) (by decide) (by decide)
  refine ⟨s₁, t, h, (identifyHonest_iff hcommand h).mpr ?_⟩
  intro vs v d hpolled _ vs' v' d' _ _
  rw [hdrive] at hpolled
  have hfirst : Polled (Bus.inb (statusPort (s₁.device (some 0)).base)) NotBusy
      (⟨[0x58, 0x58], []⟩ : ScriptedDrive) [] 0x58 ⟨[0x58], []⟩ :=
    .last (show NotBusy 0x58 by decide)
  obtain ⟨-, rfl, -⟩ := hpolled.functional hfirst
  exact .inl ⟨by decide, by decide, by decide⟩

/-- The status drops from 0x50 to 0: the drive is reported. -/
theorem identifyHonest_fails :
    ∃ s₁ t, (identifyCommand (some 0) false 0).Returns (.scripted ⟨[0x50, 0], []⟩) () s₁ ∧
      (ataIdentify (some 0) false 0).Returns (.scripted ⟨[0x50, 0], []⟩) true t ∧
      (t.devAtaDrives 0).dev = some 0 ∧ ¬ IdentifyHonest (some 0) 0 s₁ true t := by
  obtain ⟨s₁, t, hcommand, -, -, h, rfl⟩ :=
    scripted_identify 0x50 0 [] (by decide) (by decide) (by decide)
  refine ⟨s₁, _, hcommand, h, rfl, ?_⟩
  rw [honest_accepted_iff, log_identified, List.drop_left]
  have hfirst : Polled (Bus.inb (statusPort (s₁.device (some 0)).base)) NotBusy
      (⟨[0x50, 0], []⟩ : ScriptedDrive) [] 0x50 ⟨[0], []⟩ :=
    .last (show NotBusy 0x50 by decide)
  have hsecond : Polled (Bus.inb (statusPort (s₁.device (some 0)).base)) IdentifyStop
      (⟨[0], []⟩ : ScriptedDrive) [] 0 ⟨[], []⟩ :=
    .last (show IdentifyStop 0 by decide)
  intro hseen
  rcases (replySeen_iff hfirst hsecond).mp hseen with hready | hready
  · exact absurd hready.2.1 (by decide)
  · exact absurd hready.2.1 (by decide)

end MyBios
