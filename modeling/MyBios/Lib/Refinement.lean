import MyBios.Lib.Prog

/-!
Services: programs that answer one request after another.

`serve handler requests` answers a list of requests in order. What a service is for
is said by an abstract machine: a state of any type and a function `answer` that
gives the reply to a request and the state after it. `Refines` relates the two one
request at a time, for the requests that `ok` admits; `Refines.serve` is the same
for every list of requests that are admitted when their turn comes. `Abstracts`
and `Refines.trans` put a second abstract machine above the first.
-/

namespace Prog

variable {σ A B L R : Type}

/-- Answer the requests in order. -/
def serve (handler : L → Prog σ R) : List L → Prog σ (List R)
  | [] => pure []
  | l :: ls => do
    let r ← handler l
    let rs ← serve handler ls
    pure (r :: rs)

/-- The replies of an abstract machine, and its state after the last one. -/
def answers (answer : A → L → R × A) : A → List L → List R × A
  | a, [] => ([], a)
  | a, l :: ls =>
    ((answer a l).1 :: (answers answer (answer a l).2 ls).1, (answers answer (answer a l).2 ls).2)

/-- The state of an abstract machine after some requests. -/
def stateAfter (answer : A → L → R × A) (a : A) (ls : List L) : A := (answers answer a ls).2

/-- Every request is admitted in the state in which its turn comes. -/
def Admissible (answer : A → L → R × A) (ok : A → L → Prop) : A → List L → Prop
  | _, [] => True
  | a, l :: ls => ok a l ∧ Admissible answer ok (answer a l).2 ls

section Lists

variable {answer : A → L → R × A} {ok : A → L → Prop} {a : A} {ls ks : List L}

theorem answers_append : answers answer a (ls ++ ks) =
    ((answers answer a ls).1 ++ (answers answer (stateAfter answer a ls) ks).1,
      stateAfter answer (stateAfter answer a ls) ks) := by
  induction ls generalizing a with
  | nil => rfl
  | cons l ls ih =>
      rw [List.cons_append, answers, ih]
      rfl

theorem stateAfter_append :
    stateAfter answer a (ls ++ ks) = stateAfter answer (stateAfter answer a ls) ks := by
  rw [stateAfter, answers_append]

theorem admissible_append : Admissible answer ok a (ls ++ ks) ↔
    Admissible answer ok a ls ∧ Admissible answer ok (stateAfter answer a ls) ks := by
  induction ls generalizing a with
  | nil => exact (and_iff_right trivial).symm
  | cons l ls ih =>
      rw [List.cons_append, Admissible, Admissible, ih, and_assoc]
      rfl

/-- What each admitted request keeps, all of them keep. -/
theorem stateAfter_invariant {I : A → Prop} (keep : ∀ a l, l ∈ ls → I a → I (answer a l).2)
    (init : I a) : I (stateAfter answer a ls) := by
  induction ls generalizing a with
  | nil => exact init
  | cons l ls ih =>
      exact ih (fun b k hk => keep b k (List.mem_cons_of_mem l hk))
        (keep a l List.mem_cons_self init)

end Lists

/-! ### Refinement -/

/-- From a state that `rel` relates to `a`, the handler answers an admitted request as
the abstract machine does from `a`, and the states after it are related again. -/
structure Refines (rel : A → σ → Prop) (ok : A → L → Prop) (answer : A → L → R × A)
    (handler : L → Prog σ R) : Prop where
  step : ∀ {a s l}, rel a s → ok a l →
    Total (handler l) s fun r t => r = (answer a l).1 ∧ rel (answer a l).2 t

/-- A list of admitted requests is answered as the abstract machine answers it. -/
theorem Refines.serve {rel : A → σ → Prop} {ok : A → L → Prop} {answer : A → L → R × A}
    {handler : L → Prog σ R} (h : Refines rel ok answer handler) {a : A} {s : σ} {ls : List L}
    (hrel : rel a s) (hok : Admissible answer ok a ls) :
    Total (serve handler ls) s fun rs t =>
      rs = (answers answer a ls).1 ∧ rel (stateAfter answer a ls) t := by
  induction ls generalizing a s with
  | nil => exact total_pure ⟨rfl, hrel⟩
  | cons l ls ih =>
      obtain ⟨hl, hls⟩ := hok
      refine (h.step hrel hl).bind ?_
      rintro r t ⟨rfl, ht⟩
      refine (ih ht hls).bind ?_
      rintro rs u ⟨rfl, hu⟩
      exact total_pure ⟨rfl, hu⟩

/-- The machine of `answer'` answers admitted requests as that of `answer` does, from
states that `rel` relates. -/
structure Abstracts (rel : B → A → Prop) (ok : B → L → Prop) (answer' : B → L → R × B)
    (answer : A → L → R × A) : Prop where
  step : ∀ {b a l}, rel b a → ok b l →
    (answer a l).1 = (answer' b l).1 ∧ rel (answer' b l).2 (answer a l).2

/-- Two refinements, one above the other. -/
theorem Refines.trans {rel : A → σ → Prop} {rel' : B → A → Prop} {ok : A → L → Prop}
    {ok' : B → L → Prop} {answer : A → L → R × A} {answer' : B → L → R × B}
    {handler : L → Prog σ R} (h : Refines rel ok answer handler)
    (h' : Abstracts rel' ok' answer' answer) (admits : ∀ a b l, rel' b a → ok' b l → ok a l) :
    Refines (fun b s => ∃ a, rel' b a ∧ rel a s) ok' answer' handler where
  step := by
    rintro b s l ⟨a, hba, has⟩ hl
    obtain ⟨hreply, hrel⟩ := h'.step hba hl
    refine (h.step has (admits a b l hba hl)).mono ?_
    rintro r t ⟨rfl, ht⟩
    exact ⟨hreply, _, hrel, ht⟩

end Prog
