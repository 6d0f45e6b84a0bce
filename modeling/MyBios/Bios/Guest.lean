import MyBios.Bios.Services

/-!
INT 13h, from the registers of a real-mode program to the sectors.

A guest makes INTs and stores to memory. Between its registers and the drive are the
trampoline, the C function, the handler, the ATA driver and the port accesses. For the guest
they should be one step of the abstract disk (`Store.answer`), except that the bytes of `S`
are lost: the interrupt stack, and the stacks of the guest.

`guest_served`: so it is for all sequences of such steps.
-/

namespace MyBios

open Prog

/-! ### The guest -/

/-- What a guest does: INT 13h with registers `c`, or a store to memory. -/
inductive GuestRequest where
  | int13 (c : Cpu)
  | store (addr : Nat) (v : U8)

/-- What a guest sees of an INT: its registers and its stack. -/
structure GuestReply where
  reg : FrameField → U32
  ss : U16
  esp : U32

namespace GuestRequest

/-- The request of the abstract disk. -/
def toDisk : GuestRequest → DiskRequest
  | int13 c => .int13 (requestFrame c)
  | store addr v => .store addr v

/-- The reply, when the abstract disk leaves this frame. -/
def reply (frame : Option ItrFrameRealMode) : GuestRequest → Option GuestReply
  | int13 c => frame.map fun g => ⟨fun r => r.get g, c.ss, c.esp⟩
  | store _ _ => none

/-- The machine's answer. -/
def run {δ : Type} [Bus δ] (beyond : U8 → U8)
    (table : U16 → Option (ServiceRealMode (AtaState δ))) (ret : U32) :
    GuestRequest → Prog (AtaState δ) (Option GuestReply)
  | int13 c => do
    let d ← serveInterrupt (AtaState.memLens δ) (biosInit beyond table) ret
      BiosService.disk.vector c
    pure (some ⟨d.reg, d.ss, d.esp⟩)
  | store addr v => do
    onMachine (storeByte addr v)
    pure none

/-- The stack of the guest is in `S`, its buffer is not, and the drive can do the request. -/
def Admitted (S : Nat → Prop) (info : AtaDrive) (blocks : Nat) (σ : Store) : GuestRequest → Prop
  | int13 c => CallerStack c ∧ (∀ x, OnStacks c x → S x) ∧
      (toDisk (int13 c)).Admitted info blocks σ ∧
      ∀ k < 512 * (requestFrame c).al.toNat, ¬ S (bufferAddr (int13Buffer (requestFrame c)) k)
  | store _ _ => True

end GuestRequest

/-- The abstract disk, as a guest sees it. -/
def Store.answerGuest (info : AtaDrive) (σ : Store) (request : GuestRequest) :
    Option GuestReply × Store :=
  (request.reply (σ.answer info request.toDisk).1, (σ.answer info request.toDisk).2)

/-- The machine has the drive and the memory of the store, except for the bytes in `S`. -/
def RepresentsOff (S : Nat → Prop) (info : AtaDrive) (i : Fin 4) (blocks : Nat)
    (other : Nat → U8) (σ : Store) (s : AtaState Disk) : Prop :=
  ∃ m, (∀ x, ¬ S x → m x = σ.mem x) ∧ Represents info i blocks other ⟨m, σ.disk⟩ s

/-! ### One request -/

section Request

variable {S : Nat → Prop} {info : AtaDrive} {i : Fin 4} {blocks : Nat} {other : Nat → U8}
  {σ : Store} {s : AtaState Disk} {m : ByteMem} {c : Cpu} {frame : ItrFrameRealMode}

/-- The answer does not depend on the bytes in `S`. -/
theorem answer_off (info : AtaDrive) (hm : ∀ x, ¬ S x → m x = σ.mem x)
    (hbuffer : ∀ k < 512 * frame.al.toNat, ¬ S (bufferAddr (int13Buffer frame) k)) :
    (Store.answer info ⟨m, σ.disk⟩ (.int13 frame)).1 = (σ.answer info (.int13 frame)).1 ∧
      (Store.answer info ⟨m, σ.disk⟩ (.int13 frame)).2.disk =
        (σ.answer info (.int13 frame)).2.disk ∧
      ∀ x, ¬ S x → (Store.answer info ⟨m, σ.disk⟩ (.int13 frame)).2.mem x =
        (σ.answer info (.int13 frame)).2.mem x := by
  simp only [Store.answer]
  split
  · split
    · refine ⟨rfl, rfl, fun x hx => ?_⟩
      simp only [Store.fetch]
      split
      · rfl
      · exact hm x hx
    · refine ⟨rfl, ?_, hm⟩
      funext b
      simp only [Store.put]
      split
      · exact hm _ (hbuffer _ (by omega))
      · rfl
  · exact ⟨rfl, rfl, hm⟩

/-- The machine with other memory. -/
theorem Represents.withMem (hs : Represents info i blocks other σ s) :
    Represents info i blocks other ⟨m, σ.disk⟩ ((AtaState.memLens Disk).set m s) :=
  { hs with mem := rfl }

/-- The handler, run between the way in and the way out of an INT. -/
theorem int13_served (beyond : U8 → U8) (table : U16 → Option (ServiceRealMode (AtaState Disk)))
    (ret : U32) (hg : info.geometry.Addressable) (hs : Represents info i blocks other σ s)
    (hc : CallerStack c)
    (hstack : ∀ x, OnStacks c x → S x)
    (hok : (DiskRequest.int13 (requestFrame c)).Admitted info blocks σ)
    (hbuffer : ∀ k < 512 * (requestFrame c).al.toNat,
      ¬ S (bufferAddr (int13Buffer (requestFrame c)) k)) :
    ∃ m g d t, (∀ x, ¬ S x → m x = σ.mem x) ∧
      (serveInterrupt (AtaState.memLens Disk) (biosInit beyond table) ret
        BiosService.disk.vector c).Returns s d t ∧
      (Store.answer info ⟨m, σ.disk⟩ (.int13 (requestFrame c))).1 = some g ∧
      (∀ r, d.reg r = r.get g) ∧ d.ss = c.ss ∧ d.esp = c.esp ∧
      ∃ m', (∀ x, ¬ S x →
          m' x = (Store.answer info ⟨m, σ.disk⟩ (.int13 (requestFrame c))).2.mem x) ∧
        Represents info i blocks other
          ⟨m', (Store.answer info ⟨m, σ.disk⟩ (.int13 (requestFrame c))).2.disk⟩ t := by
  have hentry : ∀ x, ¬ OnStacks c x →
      entryMem ret BiosService.disk.vector c s.machine.mem x = s.machine.mem x :=
    fun x hx => entryMem_other hc hx
  have hhandler := biosInit_vector beyond table .disk
  have hback := fun (g : ItrFrameRealMode) (u : AtaState Disk) => serveInterrupt_returns
    (l := AtaState.memLens Disk) (s := s) (g := g) (u := u) ret hc hhandler
  have hmem : (AtaState.memLens Disk).get s = σ.mem := hs.mem
  rw [hmem] at hback
  rw [hs.mem] at hentry
  generalize entryMem ret BiosService.disk.vector c σ.mem = m at hentry hback
  obtain ⟨r, u, hrun, hr, hu⟩ := (refines_store hg).step (hs.withMem (m := m))
    (l := .int13 (requestFrame c)) hok
  obtain ⟨g, u', hhandled, hpure⟩ := returns_bind.mp hrun
  obtain ⟨rfl, rfl⟩ := returns_pure.mp hpure
  obtain ⟨d, hserve, hregs, hss, hesp⟩ := hback g u hhandled fun x hx =>
    disk_touches hhandled (by
      rintro ⟨-, -, k, hk, rfl⟩
      exact hbuffer k hk (hstack _ (onStacks_of_needed hc hx)))
  refine ⟨m, g, d, _, fun x hx => hentry x fun hon => hx (hstack x hon), hserve, hr.symm, hregs,
    hss, hesp, exitMem c g u.machine.mem, ?_, hu.withMem⟩
  intro x hx
  rw [exitMem_other hc fun hon => hx (hstack x hon), hu.mem]

/-- One request of a guest. -/
theorem refines_guest (hg : info.geometry.Addressable) {beyond : U8 → U8}
    {table : U16 → Option (ServiceRealMode (AtaState Disk))} {ret : U32} :
    Refines (RepresentsOff S info i blocks other) (GuestRequest.Admitted S info blocks)
      (Store.answerGuest info) (GuestRequest.run beyond table ret) where
  step := by
    rintro σ s request ⟨m₀, hm₀, hs⟩ hok
    cases request with
    | int13 c =>
        obtain ⟨hc, hstack, hadmitted, hbuffer⟩ := hok
        obtain ⟨m, g, d, t, hm, hserve, hg', hregs, hss, hesp, m', hm', ht⟩ :=
          int13_served beyond table ret hg hs hc hstack hadmitted hbuffer
        obtain ⟨hreply, hdisk, hmem⟩ := answer_off info
          (fun x hx => (hm x hx).trans (hm₀ x hx)) hbuffer
        refine ⟨_, t, hserve.bind (returns_pure.mpr ⟨rfl, rfl⟩), ?_, m', ?_, ?_⟩
        · have hframe : (σ.answer info (.int13 (requestFrame c))).1 = some g :=
            hreply.symm.trans hg'
          have hreg : d.reg = fun r => r.get g := funext hregs
          simp only [Store.answerGuest, GuestRequest.toDisk, GuestRequest.reply, hframe,
            Option.map_some, hreg, hss, hesp]
        · exact fun x hx => (hm' x hx).trans (hmem x hx)
        · rw [hdisk] at ht
          exact ht
    | store addr v =>
        obtain ⟨r, t, hrun, rfl, ht⟩ := (refines_store hg).step hs (l := .store addr v) trivial
        obtain ⟨⟨⟩, u, hstore, hpure⟩ := returns_bind.mp hrun
        obtain ⟨-, rfl⟩ := returns_pure.mp hpure
        refine ⟨none, t, hstore.bind (returns_pure.mpr ⟨rfl, rfl⟩), rfl, _, ?_, ht⟩
        intro x hx
        simp only [Store.answer, Store.answerGuest, GuestRequest.toDisk, ByteMem.write8]
        split
        · rfl
        · exact hm₀ x hx

/-- The INTs and stores of a guest are served as the abstract disk serves them. -/
theorem guest_served (hg : info.geometry.Addressable) {beyond : U8 → U8}
    {table : U16 → Option (ServiceRealMode (AtaState Disk))} {ret : U32}
    {requests : List GuestRequest} (hs : Represents info i blocks other σ s)
    (hok : Admissible (Store.answerGuest info) (GuestRequest.Admitted S info blocks) σ requests) :
    Total (serve (GuestRequest.run beyond table ret) requests) s fun replies t =>
      replies = (answers (Store.answerGuest info) σ requests).1 ∧
        RepresentsOff S info i blocks other
          (stateAfter (Store.answerGuest info) σ requests) t :=
  (refines_guest hg).serve ⟨σ.mem, fun _ _ => rfl, hs⟩ hok

end Request

/-! ### A guest -/

/-- INT 13h for one sector at cylinder 1, head 1, sector 1 and the buffer at 0. -/
def sectorCall (write : Bool) : Cpu :=
  { atInterrupt 0 with
    eax := if write then 0x0301 else 0x0201
    ebx := 0
    ecx := 0x0101
    edx := 0x0180
    es := 0 }

def smallGuest : List GuestRequest :=
  [.store 3 0x5A, .int13 (sectorCall true), .store 3 0, .int13 (sectorCall false)]

theorem admitted_sectorCall (write : Bool) (σ : Store) :
    GuestRequest.Admitted (OnStacks (atInterrupt 0)) (smallDrive true) 64 σ
      (.int13 (sectorCall write)) := by
  have hcaller : CallerStack (sectorCall write) :=
    ⟨(callerStack_atInterrupt 0).room, (callerStack_atInterrupt 0).apart⟩
  have hal : (requestFrame (sectorCall write)).al.toNat = 1 := by cases write <;> decide
  have hbuffer : int13Buffer (requestFrame (sectorCall write)) = 0 := by cases write <;> decide
  refine ⟨hcaller, fun _ hx => hx, fun _ _ => ?_, fun k hk hx => ?_⟩
  · constructor <;> cases write <;> decide
  · have haddr : bufferAddr 0 k = k % 2 ^ 32 := by simp [bufferAddr]
    rw [hbuffer, haddr] at hx
    have htop : (atInterrupt 0).stackTop = 0x80100 := by decide
    unfold OnStacks at hx
    omega

theorem guest_served_small :
    Total (serve (GuestRequest.run id (fun _ => none) 0xF1000) smallGuest) (smallMachine true)
      fun replies t =>
        replies = (answers (Store.answerGuest (smallDrive true)) ⟨.zeros, fun _ => 0⟩
            smallGuest).1 ∧
          RepresentsOff (OnStacks (atInterrupt 0)) (smallDrive true) 0 64 (fun _ => 0)
            (stateAfter (Store.answerGuest (smallDrive true)) ⟨.zeros, fun _ => 0⟩ smallGuest)
              t :=
  guest_served addressable_smallDrive represents_smallMachine
    ⟨trivial, admitted_sectorCall true _, trivial, admitted_sectorCall false _, trivial⟩

end MyBios
