import MyBios.Lib.Clock
import MyBios.Keyboard.Transact

/-!
How long the timed waits wait.

The timer counts its ticks in 32 bits (`timer.c`), so the counter goes back to 0 after
`2 ^ 32` of them. `Ticking` is devices with a timer: the time itself only goes on, by any
amount between two accesses, and the counter shows it modulo `2 ^ 32`.

`keyboard_send_data`, `keyboard_transact` and `msleep` subtract two readings of the counter.
`keyboard_read_data` compares the counter with a deadline.

* `givesUpInTime_iff`: all of them wait as long as they should exactly if the deadline of
  `keyboard_read_data` is safe.
* `msleep_total`: `msleep` ends if the timer goes on interrupting, also when the counter wraps.
* `givesUpInTime_fails`: less than 18 ticks before the counter wraps it gives up at once.
-/

namespace MyBios

open Prog Poll Clock

/-! ### Looking at the controller -/

variable {δ : Type} [Bus δ]

section Look

variable {ready : U8 → Prop} [DecidablePred ready] {clock : δ → U32 × δ} {d : δ}

/-- A look that does not find what is waited for. -/
theorem look_waiting (h : ¬ ready (Bus.inb keyboardStatusPort d).1) :
    look ready clock d =
      (((Bus.inb keyboardStatusPort d).1, (clock (Bus.inb keyboardStatusPort d).2).1),
        (clock (Bus.inb keyboardStatusPort d).2).2) := if_neg h

theorem look_fst : (look ready clock d).1.1 = (Bus.inb keyboardStatusPort d).1 := by
  rw [look]
  split <;> rfl

end Look

/-- The first look of `keyboard_read_data`, called at `d`. -/
def firstLook (d : δ) : U8 × δ := Bus.inb keyboardStatusPort (Bus.ticks d).2

/-- A call that finds a byte when it looks first does not give up. -/
theorem answering_of_first {d d' : δ} {vs : List (U8 × U32)} {v : U8 × U32}
    (hfirst : Answering (firstLook d).1) (hwait : ReadWait d vs v d') : Answering v.1 := by
  cases hwait with
  | last =>
      rw [look_fst]
      exact hfirst
  | more hnot =>
      rw [LookStop, look_fst] at hnot
      exact absurd (.inl hfirst) hnot

/-- The byte that an access loaded from `port`. -/
def PortEvent.readFrom (port : U16) : PortEvent → Option U8
  | .inb p v => if p = port then some v else none
  | _ => none

/-- The bytes read from the data port between two states. -/
def dataReads (p q : Ports δ) : List U8 :=
  (q.log.drop p.log.length).filterMap (·.readFrom keyboardDataPort)

variable {p q : Ports δ} {x y : U8}

omit [Bus δ] in
theorem dataReads_eq (log : List PortEvent) (h : q.log = p.log ++ log) :
    dataReads p q = log.filterMap (·.readFrom keyboardDataPort) := by
  rw [dataReads, h, List.drop_left]

theorem readsFrom_looks {vs : List (U8 × U32)} :
    (vs.map fun v => PortEvent.inb keyboardStatusPort v.1).filterMap
      (·.readFrom keyboardDataPort) = [] := by
  induction vs with
  | nil => rfl
  | cons v vs ih => exact ih

/-- `keyboard_read_data` reads no byte if what it waits for does not come. -/
theorem readData_gaveUp_iff :
    (∃ y, keyboardReadData.Returns p y q ∧ dataReads p q = []) ↔
      ∃ vs v d, ReadWait p.dev vs v d ∧ ¬ Answering v.1 ∧ q = lookedAt p.log d (vs ++ [v]) := by
  simp only [keyboardReadData_eq, returns_waitThen reads_ticks]
  constructor
  · rintro ⟨y, ⟨vs, v, d, hwait, hread⟩, hreads⟩
    by_cases hanswer : Answering v.1
    · rw [decide_eq_true hanswer, if_neg (by decide)] at hread
      obtain ⟨rfl, rfl⟩ := returns_inb.mp hread
      rw [dataReads_eq _ (List.append_assoc _ _ _), List.filterMap_append,
        readsFrom_looks] at hreads
      cases hreads
    · rw [decide_eq_false hanswer, if_pos (by decide)] at hread
      exact ⟨vs, v, d, hwait, hanswer, (returns_pure.mp hread).2⟩
  · rintro ⟨vs, v, d, hwait, hsilent, rfl⟩
    refine ⟨0, ⟨vs, v, d, hwait, ?_⟩, (dataReads_eq _ rfl).trans readsFrom_looks⟩
    rw [decide_eq_false hsilent, if_pos (by decide)]
    exact returns_pure.mpr ⟨rfl, rfl⟩

/-! ### The timer -/

/-- `hlt` with interrupts on waits until one of the devices interrupts. -/
class Halt (δ : Type) where
  hlt : δ → δ

/-- The time, of which the counter shows the low 32 bits. -/
class Ticking (δ : Type) [Bus δ] [Halt δ] where
  time : δ → Nat
  shows : ∀ d, (Bus.ticks d).1 = reading 32 (time (Bus.ticks d).2)
  ticks_le : ∀ d, time d ≤ time (Bus.ticks d).2
  inb_le : ∀ port d, time d ≤ time (Bus.inb port d).2
  outb_le : ∀ port v d, time d ≤ time (Bus.outb port v d)
  hlt_le : ∀ d, time d ≤ time (Halt.hlt d)

variable [Halt δ]

/-- `msleep`. -/
def msleep (ms : U32) : Io δ Unit := do
  let ticks := ms / 55
  let start ← timerGetTicks
  loop (fun _ => do
    let now ← timerGetTicks
    if now - start < ticks then do
      modify fun p => { p with dev := Halt.hlt p.dev }
      pure (Pass.again ())
    else pure (Pass.done ())) ()

/-! ### In time -/

variable [Ticking δ]

/-- The ticks from the first reading of the counter after `p` up to `q`. -/
def elapsed (p q : Ports δ) : Nat := Ticking.time q.dev - Ticking.time (Bus.ticks p.dev).2

/-- No wait that begins at `p` gives up, or ends, before its own time is over. -/
structure GivesUpInTime (p : Ports δ) : Prop where
  /-- No byte was read. -/
  read : ∀ y q, keyboardReadData.Returns p y q → dataReads p q = [] → 18 < elapsed p q
  /-- The byte was not sent. -/
  send : ∀ x q, (keyboardSendData x).Returns p () q → dataWrites p q = [] → 100 < elapsed p q
  /-- No acknowledgement came. -/
  transact : ∀ x q, (keyboardTransact x).Returns p 0 q → 18 < elapsed p q
  sleep : ∀ ms q, (msleep ms).Returns p () q → ms.toNat / 55 ≤ elapsed p q

/-- The deadline does not wrap, or a byte is there at the first look, or the counter has
wrapped by then. -/
def SafeDeadline (d : δ) : Prop :=
  (Bus.ticks d).1.toNat + 18 < 2 ^ 32 ∨ Answering (firstLook d).1 ∨
    2 ^ 32 ≤ (Bus.ticks d).1.toNat +
      (Ticking.time (Bus.ticks (firstLook d).2).2 - Ticking.time (Bus.ticks d).2)

instance {d : δ} : Decidable (SafeDeadline d) :=
  inferInstanceAs (Decidable ((Bus.ticks d).1.toNat + 18 < 2 ^ 32 ∨ Answering (firstLook d).1 ∨
    2 ^ 32 ≤ (Bus.ticks d).1.toNat +
      (Ticking.time (Bus.ticks (firstLook d).2).2 - Ticking.time (Bus.ticks d).2)))

/-! ### What a wait sees -/

/-- Reading the clock shows the time. -/
structure Tells (clock : δ → U32 × δ) : Prop where
  shows : ∀ d, (clock d).1 = reading 32 (Ticking.time (clock d).2)
  le : ∀ d, Ticking.time d ≤ Ticking.time (clock d).2

theorem tells_ticks : Tells (Bus.ticks (δ := δ)) := ⟨Ticking.shows, Ticking.ticks_le⟩

theorem tells_clockTwice : Tells (clockTwice (δ := δ)) :=
  ⟨fun _ => Ticking.shows _, fun _ => Nat.le_trans (Ticking.ticks_le _) (Ticking.ticks_le _)⟩

section Wait

variable {ready : U8 → Prop} [DecidablePred ready] {expired : U32 → Prop}
  {clock : δ → U32 × δ} {d d' : δ} {vs : List (U8 × U32)} {v : U8 × U32}

theorem look_le (hclock : Tells clock) :
    Ticking.time d ≤ Ticking.time (look ready clock d).2 := by
  have hinb : Ticking.time d ≤ Ticking.time (Bus.inb keyboardStatusPort d).2 :=
    Ticking.inb_le keyboardStatusPort d
  rw [look]
  split
  · exact hinb
  · exact Nat.le_trans hinb (hclock.le _)

theorem polled_le (hclock : Tells clock)
    (h : Polled (look ready clock) (LookStop ready expired) d vs v d') :
    Ticking.time d ≤ Ticking.time d' :=
  Nat.le_trans (look_le hclock) (h.le fun _ => look_le hclock)

/-- A wait that ends without what it waited for has read, last of all, that its time is
over. -/
theorem expired_of_polled (hclock : Tells clock)
    (h : Polled (look ready clock) (LookStop ready expired) d vs v d') (hnot : ¬ ready v.1) :
    expired (reading 32 (Ticking.time d')) := by
  obtain ⟨hstop, u, hlook⟩ := h.last_read
  have hseen : v = (look ready clock u).1 := (congrArg Prod.fst hlook).symm
  have hafter : d' = (look ready clock u).2 := (congrArg Prod.snd hlook).symm
  have hwaiting : ¬ ready (Bus.inb keyboardStatusPort u).1 := by
    rwa [hseen, look_fst] at hnot
  have hexpired : expired v.2 := hstop.resolve_left hnot
  rw [hseen, look_waiting hwaiting] at hexpired
  rwa [hafter, look_waiting hwaiting, ← hclock.shows]

end Wait

variable {d d' : δ}

/-! ### The differences -/

theorem lt_elapsed {n : U32} (hle : Ticking.time (Bus.ticks p.dev).2 ≤ Ticking.time q.dev)
    (h : reading 32 (Ticking.time q.dev) - (Bus.ticks p.dev).1 > n) : n.toNat < elapsed p q := by
  rw [Ticking.shows] at h
  exact lt_of_lt_sub hle h

/-- `keyboard_send_data` drops the byte after more than 100 ticks. -/
theorem sendData_inTime (h : (keyboardSendData x).Returns p () q) (hdropped : dataWrites p q = []) :
    100 < elapsed p q := by
  obtain ⟨ok, log, hoffered, hlog, hwrites⟩ := sendData_offered h
  rw [dataWrites_eq log hlog, hwrites] at hdropped
  cases ok with
  | true => exact absurd hdropped (List.cons_ne_nil x [])
  | false =>
      cases hoffered with
      | dropped wait refusing =>
          have hover := expired_of_polled tells_clockTwice wait refusing
          exact lt_elapsed (polled_le tells_clockTwice wait) hover

theorem Offered.le {ok : Bool} (h : Offered x d ok d') : Ticking.time d ≤ Ticking.time d' := by
  have hticks : Ticking.time d ≤ Ticking.time (Bus.ticks d).2 := Ticking.ticks_le d
  cases h with
  | taken wait =>
      exact Nat.le_trans (Nat.le_trans hticks (polled_le tells_clockTwice wait))
        (Ticking.outb_le _ _ _)
  | dropped wait => exact Nat.le_trans hticks (polled_le tells_clockTwice wait)

theorem Answered.le (h : Answered d y d') : Ticking.time d ≤ Ticking.time d' := by
  have hticks : Ticking.time d ≤ Ticking.time (Bus.ticks d).2 := Ticking.ticks_le d
  cases h with
  | byte wait =>
      exact Nat.le_trans (Nat.le_trans hticks (polled_le tells_ticks wait)) (Ticking.inb_le _ _)
  | late wait => exact Nat.le_trans hticks (polled_le tells_ticks wait)

/-- A pass of `keyboard_transact` takes its time, and gives up only when the time is over. -/
theorem transactPass_time {timerTicks : U32} {pass : Pass U8 U8}
    (h : (transactPass timerTicks x).Returns p pass q) :
    Ticking.time p.dev ≤ Ticking.time q.dev ∧
      (pass = .done 0 → reading 32 (Ticking.time q.dev) - timerTicks > 18) := by
  obtain ⟨ok, y, d₁, d₂, log, hoffered, hanswered, hdev, -, -, hpass⟩ := transactPass_offered h
  rw [hdev]
  constructor
  · exact Nat.le_trans (Nat.le_trans hoffered.le hanswered.le) (Ticking.ticks_le d₂)
  · intro hdone
    rw [hpass] at hdone
    rw [← Ticking.shows]
    by_contra hearly
    rw [if_neg hearly] at hdone
    split at hdone
    · rename_i hack
      rw [hack] at hdone
      exact absurd (Pass.done.inj hdone) (by decide)
    · cases hdone

/-- `keyboard_transact` gives up after more than 18 ticks. -/
theorem transact_inTime (h : (keyboardTransact x).Returns p 0 q) : 18 < elapsed p q := by
  have hticks : timerGetTicks.Returns p _ _ := returns_timerGetTicks.mpr ⟨rfl, rfl⟩
  rw [keyboardTransact_eq, hticks.bind_iff] at h
  obtain ⟨x', p', hle, hlast⟩ := h.loop_induct
    (I := fun _ q => Ticking.time (Bus.ticks p.dev).2 ≤ Ticking.time q.dev)
    (fun _ _ _ _ hle hpass => Nat.le_trans hle (transactPass_time hpass).1) (Nat.le_refl _)
  obtain ⟨hpass, hover⟩ := transactPass_time hlast
  exact lt_elapsed (Nat.le_trans hle hpass) (hover rfl)

/-- `msleep` sleeps for `ms / 55` ticks. -/
theorem msleep_inTime {ms : U32} (h : (msleep ms).Returns p () q) :
    ms.toNat / 55 ≤ elapsed p q := by
  have hticks : ∀ p' : Ports δ, timerGetTicks.Returns p' _ _ :=
    fun _ => returns_timerGetTicks.mpr ⟨rfl, rfl⟩
  rw [msleep, (hticks p).bind_iff] at h
  obtain ⟨⟨⟩, p', hle, hlast⟩ := h.loop_induct
    (I := fun _ q => Ticking.time (Bus.ticks p.dev).2 ≤ Ticking.time q.dev)
    (by
      intro _ s _ t hle hpass
      rw [(hticks s).bind_iff, returns_ite] at hpass
      split at hpass
      · obtain ⟨⟨⟩, s', hhlt, hpure⟩ := returns_bind.mp hpass
        rw [(returns_pure.mp hpure).2, returns_modify.mp hhlt]
        exact Nat.le_trans hle (Nat.le_trans (Ticking.ticks_le s.dev) (Ticking.hlt_le _))
      · exact absurd (returns_pure.mp hpass).1 (by simp))
    (Nat.le_refl _)
  rw [(hticks p').bind_iff, returns_ite] at hlast
  split at hlast
  · obtain ⟨_, _, _, hpure⟩ := returns_bind.mp hlast
    exact absurd (returns_pure.mp hpure).1 (by simp)
  · rename_i hover
    rw [(returns_pure.mp hlast).2]
    rw [Ticking.shows, Ticking.shows p.dev] at hover
    have hdiv : (ms / 55).toNat = ms.toNat / 55 := BitVec.toNat_udiv
    rw [← hdiv]
    exact le_of_le_sub (Nat.le_trans hle (Ticking.ticks_le _)) (BitVec.not_lt.mp hover)

/-! ### The deadline -/

/-- What the comparison with the deadline says at a later time. -/
theorem later_deadline_iff {now : Nat} (hle : Ticking.time (Bus.ticks d).2 ≤ now) :
    (reading 32 now > (Bus.ticks d).1 + 18 → 18 < now - Ticking.time (Bus.ticks d).2) ↔
      (Bus.ticks d).1.toNat + 18 < 2 ^ 32 ∨
        2 ^ 32 ≤ (Bus.ticks d).1.toNat + (now - Ticking.time (Bus.ticks d).2) := by
  rw [Ticking.shows, reading_toNat]
  exact deadline_iff hle

/-- If no byte is there at the first look, the deadline is safe if the comparison is right
then. -/
theorem safeDeadline_iff (hsilent : ¬ Answering (firstLook d).1) :
    SafeDeadline d ↔
      (reading 32 (Ticking.time (look Answering Bus.ticks (Bus.ticks d).2).2) >
          (Bus.ticks d).1 + 18 →
        18 < Ticking.time (look Answering Bus.ticks (Bus.ticks d).2).2 -
          Ticking.time (Bus.ticks d).2) := by
  rw [later_deadline_iff (look_le tells_ticks), look_waiting hsilent]
  exact or_congr_right (or_iff_right hsilent)

/-- `keyboard_read_data` gives up in time exactly if its deadline is safe. -/
theorem readData_inTime_iff :
    (∀ y q, keyboardReadData.Returns p y q → dataReads p q = [] → 18 < elapsed p q) ↔
      SafeDeadline p.dev := by
  constructor
  · intro hread
    by_cases hfirst : Answering (firstLook p.dev).1
    · exact .inr (.inl hfirst)
    · rw [safeDeadline_iff hfirst]
      intro hover
      -- the first look gives up
      have hwait : ReadWait p.dev [] _ _ := .last (.inr (by
        rw [look_waiting hfirst] at hover ⊢
        rwa [Ticking.shows]))
      have hsilent : ¬ Answering (look Answering Bus.ticks (Bus.ticks p.dev).2).1.1 := by
        rwa [look_fst]
      obtain ⟨y, hreturns, hreads⟩ := readData_gaveUp_iff.mpr ⟨[], _, _, hwait, hsilent, rfl⟩
      exact hread y _ hreturns hreads
  · intro hsafe y q hreturns hreads
    obtain ⟨vs, v, d, hwait, hsilent, rfl⟩ := readData_gaveUp_iff.mp ⟨y, hreturns, hreads⟩
    have hfirst : ¬ Answering (firstLook p.dev).1 := fun h => hsilent (answering_of_first h hwait)
    rw [safeDeadline_iff hfirst, later_deadline_iff (look_le tells_ticks)] at hsafe
    -- if the counter has wrapped at the first look, it has at the last one
    have hlater := hwait.le (f := Ticking.time) fun _ => look_le tells_ticks
    refine (later_deadline_iff (polled_le tells_ticks hwait)).mpr (hsafe.imp_right ?_)
      (expired_of_polled tells_ticks hwait hsilent)
    intro hwrapped
    exact Nat.le_trans hwrapped (Nat.add_le_add_left (Nat.sub_le_sub_right hlater _) _)

/-- All of them wait as long as they should exactly if that deadline is safe. -/
theorem givesUpInTime_iff (p : Ports δ) : GivesUpInTime p ↔ SafeDeadline p.dev := by
  constructor
  · intro h
    exact readData_inTime_iff.mp h.read
  · intro hsafe
    exact
      { read := readData_inTime_iff.mpr hsafe
        send := fun _ _ => sendData_inTime
        transact := fun _ _ => transact_inTime
        sleep := fun _ _ => msleep_inTime }

/-! ### Sleeping ends -/

/-- The timer interrupts: `hlt` wakes up with the time gone on, and neither that nor reading
the counter takes more than `step` ticks. -/
structure Wakes (δ : Type) [Bus δ] [Halt δ] [Ticking δ] (step : Nat) : Prop where
  hlt_lt : ∀ d : δ, Ticking.time d < Ticking.time (Halt.hlt d)
  hlt_le : ∀ d : δ, Ticking.time (Halt.hlt d) ≤ Ticking.time d + step
  ticks_le : ∀ d : δ, Ticking.time (Bus.ticks d).2 ≤ Ticking.time d + step

variable {step : Nat} {ms : U32}

/-- Then `msleep` ends: its readings are too close together to pass over the values that end
the loop. -/
theorem sleep_ends (hwakes : Wakes δ step) (hstep : ms.toNat / 55 + 2 * step < 2 ^ 32)
    (p : Ports δ) :
    Total (msleep ms) p fun _ q => elapsed p q ≤ ms.toNat / 55 + 2 * step := by
  have hticks : ∀ q : Ports δ, timerGetTicks.Returns q _ _ :=
    fun _ => returns_timerGetTicks.mpr ⟨rfl, rfl⟩
  have hdiv : (ms / 55).toNat = ms.toNat / 55 := BitVec.toNat_udiv
  refine (Total.of_returns (hticks p)).bind ?_
  rintro _ _ ⟨rfl, rfl⟩
  -- the loop goes round before the end only, so it starts a pass at most a halt behind it
  refine Total.loop
    (fun _ q => Ticking.time (Bus.ticks p.dev).2 + ms.toNat / 55 + step - Ticking.time q.dev)
    (I := fun _ q => Ticking.time (Bus.ticks p.dev).2 ≤ Ticking.time q.dev ∧
      elapsed p q ≤ ms.toNat / 55 + step) ?_ ⟨Nat.le_refl _, by simp [elapsed]⟩
  rintro ⟨⟩ q ⟨hstart, hend⟩
  refine (Total.of_returns (hticks q)).bind ?_
  rintro _ _ ⟨rfl, rfl⟩
  have hread := Ticking.ticks_le q.dev
  have hlate := hwakes.ticks_le q.dev
  have hwake := hwakes.hlt_lt (Bus.ticks q.dev).2
  have hhalt := hwakes.hlt_le (Bus.ticks q.dev).2
  have hsub : ((Bus.ticks q.dev).1 - (Bus.ticks p.dev).1).toNat =
      (Ticking.time (Bus.ticks q.dev).2 - Ticking.time (Bus.ticks p.dev).2) % 2 ^ 32 := by
    rw [Ticking.shows, Ticking.shows p.dev, sub_reading (Nat.le_trans hstart hread),
      reading_toNat]
  unfold elapsed at hend
  rw [Nat.mod_eq_of_lt (by omega)] at hsub
  by_cases hless : (Bus.ticks q.dev).1 - (Bus.ticks p.dev).1 < ms / 55
  · have hbefore := BitVec.lt_def.mp hless
    rw [hsub, hdiv] at hbefore
    rw [if_pos hless]
    refine Total.modify_bind (total_pure ⟨⟨?_, ?_⟩, ?_⟩)
    · show _ ≤ Ticking.time (Halt.hlt (Bus.ticks q.dev).2)
      omega
    · show Ticking.time (Halt.hlt (Bus.ticks q.dev).2) - _ ≤ _
      omega
    · show _ - Ticking.time (Halt.hlt (Bus.ticks q.dev).2) < _
      omega
  · rw [if_neg hless]
    refine total_pure ?_
    show Ticking.time (Bus.ticks q.dev).2 - _ ≤ _
    omega

/-- `msleep` sleeps as long as it should and no more than two steps longer, wherever the
counter starts and if it wraps or not. -/
theorem msleep_total (hwakes : Wakes δ step) (hstep : ms.toNat / 55 + 2 * step < 2 ^ 32)
    (p : Ports δ) :
    Total (msleep ms) p fun _ q =>
      ms.toNat / 55 ≤ elapsed p q ∧ elapsed p q ≤ ms.toNat / 55 + 2 * step := by
  obtain ⟨⟨⟩, q, hrun, hlate⟩ := sleep_ends hwakes hstep p
  exact ⟨(), q, hrun, msleep_inTime hrun, hlate⟩

/-! ### Two calls -/

/-- A controller that never has a byte, and a timer that ticks whenever it is read. -/
structure SilentController where
  ticks : Nat

instance : Bus SilentController where
  inb _ d := (0, d)
  inw _ d := (0, d)
  outb _ _ d := d
  outw _ _ d := d
  ticks d := (reading 32 (d.ticks + 1), ⟨d.ticks + 1⟩)

instance : Halt SilentController where
  hlt d := ⟨d.ticks + 1⟩

instance : Ticking SilentController where
  time := SilentController.ticks
  shows _ := rfl
  ticks_le d := Nat.le_succ d.ticks
  inb_le _ d := Nat.le_refl d.ticks
  outb_le _ _ d := Nat.le_refl d.ticks
  hlt_le d := Nat.le_succ d.ticks

theorem wakes_silent : Wakes SilentController 1 where
  hlt_lt d := Nat.lt_succ_self d.ticks
  hlt_le d := Nat.le_refl (d.ticks + 1)
  ticks_le d := Nat.le_refl (d.ticks + 1)

/-- Two seconds from just before the counter wraps. -/
theorem msleep_total_wrapping :
    Total (msleep 2000) (⟨⟨0xFFFFFFF7⟩, []⟩ : Ports SilentController) fun _ q =>
      36 ≤ elapsed ⟨⟨0xFFFFFFF7⟩, []⟩ q ∧ elapsed ⟨⟨0xFFFFFFF7⟩, []⟩ q ≤ 36 + 2 * 1 :=
  msleep_total wakes_silent (by decide) _

/-- Well before the counter wraps all is well. -/
theorem givesUpInTime_at_reset : GivesUpInTime (⟨⟨0⟩, []⟩ : Ports SilentController) :=
  (givesUpInTime_iff _).mpr (.inl (by decide))

/-- Eight ticks before it, `keyboard_read_data` gives up after a single tick. -/
theorem givesUpInTime_fails : ¬ GivesUpInTime (⟨⟨0xFFFFFFF7⟩, []⟩ : Ports SilentController) := by
  intro h
  have hsafe := readData_inTime_iff.mp h.read
  exact absurd hsafe (by decide)

end MyBios
