import Mathlib.Logic.Function.Basic
import MyBios.Lib.Lane
import MyBios.Lib.Prog

/-!
Reading and writing a place through programs.

A `Place` is a value inside a memory, with its laws: what was put is read, putting back
what is there changes nothing, and the last value that was put counts. A cell of a memory
is a place, a lane of a word is one, and `andThen` is a place inside a place. Two places
are `Apart` when a write to the first is not seen in the second.

`Implements` says that two programs are the reader and the writer of a place; what else
they change in their state is not looked at. `Lawful` is what a caller of the two programs
sees, and `Implements.lawful` gets it from the place.
-/

namespace Accessor

open Prog

/-- A value of type `α` inside a memory of type `μ`. -/
structure Place (μ α : Type) where
  get : μ → α
  put : α → μ → μ
  get_put : ∀ v m, get (put v m) = v
  put_get : ∀ m, put (get m) m = m
  put_put : ∀ u v m, put v (put u m) = put v m

namespace Place

variable {μ ν α β ι : Type}

/-- A cell of a memory. -/
def cell [DecidableEq ι] (i : ι) : Place (ι → α) α where
  get m := m i
  put v m := Function.update m i v
  get_put v m := Function.update_self i v m
  put_get m := Function.update_eq_self i m
  put_put u v m := Function.update_idem u v m

/-- A lane of a word. -/
def lane {n : Nat} (w k : Nat) (h : k + w ≤ n) : Place (BitVec n) (BitVec w) where
  get := Lane.get w k
  put := Lane.set k
  get_put _ _ := Lane.get_set h
  put_get _ := Lane.set_get
  put_put _ _ _ := Lane.set_set

/-- A place inside a place. -/
def andThen (p : Place μ ν) (q : Place ν α) : Place μ α where
  get m := q.get (p.get m)
  put v m := p.put (q.put v (p.get m)) m
  get_put v m := by rw [p.get_put, q.get_put]
  put_get m := by rw [q.put_get, p.put_get]
  put_put u v m := by rw [p.get_put, p.put_put, q.put_put]

/-- What is put into the first place is not seen in the second. -/
def Apart (p : Place μ α) (q : Place μ β) : Prop := ∀ v m, q.get (p.put v m) = q.get m

theorem cell_apart [DecidableEq ι] {i j : ι} (h : j ≠ i) :
    Apart (cell i : Place (ι → α) α) (cell j) := by
  intro v m
  show Function.update m i v j = m j
  exact Function.update_of_ne h v m

theorem lane_apart {n w w' k k' : Nat} {h : k + w ≤ n} {h' : k' + w' ≤ n}
    (disjoint : k' + w' ≤ k ∨ k + w ≤ k') : Apart (lane w k h) (lane w' k' h') :=
  fun _ _ => Lane.get_set_disjoint disjoint

/-- A place inside one that is apart. -/
theorem Apart.right {p : Place μ α} {p' : Place μ ν} (h : Apart p p') (q' : Place ν β) :
    Apart p (p'.andThen q') := by
  intro v m
  exact congrArg q'.get (h v m)

theorem Apart.left {p : Place μ ν} {p' : Place μ β} (h : Apart p p') (q : Place ν α) :
    Apart (p.andThen q) p' := by
  intro v m
  exact h _ m

/-- Places inside one place are apart when they are apart there. -/
theorem Apart.inside {q : Place ν α} {q' : Place ν β} (h : Apart q q') (p : Place μ ν) :
    Apart (p.andThen q) (p.andThen q') := by
  intro v m
  show q'.get (p.get (p.put _ m)) = q'.get (p.get m)
  rw [p.get_put, h]

end Place

variable {σ μ α β : Type} {mem : σ → μ} {place : Place μ α} {read : Prog σ α}
  {write : α → Prog σ Unit}

/-- The programs read and write the place in the memory `mem` of the state. -/
structure Implements (mem : σ → μ) (place : Place μ α) (read : Prog σ α)
    (write : α → Prog σ Unit) : Prop where
  reads : ∀ s, Total read s fun v t => v = place.get (mem s) ∧ mem t = mem s
  writes : ∀ v s, Total (write v) s fun _ t => mem t = place.put v (mem s)

/-- The laws of a reader and a writer of one place. -/
structure Lawful (mem : σ → μ) (read : Prog σ α) (write : α → Prog σ Unit) : Prop where
  /-- What was just written is read. -/
  read_back : ∀ v s, Total (write v >>= fun _ => read) s fun r _ => r = v
  /-- Writing what was just read changes nothing. -/
  write_back : ∀ s, Total (read >>= write) s fun _ t => mem t = mem s
  /-- A write hides the one before it. -/
  overwrite : ∀ u v s, ∃ t t', (write u >>= fun _ => write v).Returns s () t ∧
    (write v).Returns s () t' ∧ mem t = mem t'
  /-- Reading changes nothing. -/
  quiet : ∀ s, Total read s fun _ t => mem t = mem s

theorem Implements.lawful (h : Implements mem place read write) : Lawful mem read write where
  read_back v s := by
    refine (h.writes v s).bind ?_
    intro _ t ht
    refine (h.reads t).mono ?_
    rintro r _ ⟨rfl, -⟩
    rw [ht, place.get_put]
  write_back s := by
    refine (h.reads s).bind ?_
    rintro _ t ⟨rfl, ht⟩
    refine (h.writes _ t).mono ?_
    intro _ u hu
    rw [hu, ht, place.put_get]
  overwrite u v s := by
    obtain ⟨⟨⟩, t, hfirst, ht⟩ := h.writes u s
    obtain ⟨⟨⟩, t', hsecond, ht'⟩ := h.writes v t
    obtain ⟨⟨⟩, t'', halone, ht''⟩ := h.writes v s
    refine ⟨t', t'', hfirst.bind hsecond, halone, ?_⟩
    rw [ht', ht, place.put_put, ht'']
  quiet s := (h.reads s).mono fun _ _ hread => hread.2

/-- A write is not seen in the places that are apart. -/
theorem Implements.frame {ι : Type} (h : Implements mem place read write) {P : ι → Prop}
    {q : ι → Place μ β} (apart : ∀ i, P i → place.Apart (q i)) (v : α) (s : σ) :
    Total (write v) s fun _ t => ∀ i, P i → (q i).get (mem t) = (q i).get (mem s) := by
  refine (h.writes v s).mono ?_
  intro _ t ht i hi
  rw [ht, apart i hi]

/-- Two programs read the same value, and neither changes the memory. -/
def ReadAlike (mem : σ → μ) (p q : Prog σ α) : Prop :=
  ∀ s, ∃ v t u, p.Returns s v t ∧ q.Returns s v u ∧ mem t = mem s ∧ mem u = mem s

/-- Programs that read the same function of the memory. -/
theorem ReadAlike.of_total {f : μ → α} {p q : Prog σ α}
    (hp : ∀ s, Total p s fun v t => v = f (mem s) ∧ mem t = mem s)
    (hq : ∀ s, Total q s fun v t => v = f (mem s) ∧ mem t = mem s) : ReadAlike mem p q := by
  intro s
  obtain ⟨_, t, hreads, rfl, ht⟩ := hp s
  obtain ⟨_, u, hreads', rfl, hu⟩ := hq s
  exact ⟨_, t, u, hreads, hreads', ht, hu⟩

end Accessor
