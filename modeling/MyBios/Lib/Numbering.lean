import Mathlib.Order.Interval.Set.Defs
import Mathlib.Data.Prod.Lex
import Mathlib.Data.Set.Function

/-!
Numbering the elements of a finite ordered set from 0.

`Numbers r S N f` says that `f` numbers the elements of `S` with the numbers below `N`,
each once, and in the order `r`. Two numberings give one of the product, with the pairs
in lexicographic order and the first number weighted by the size of the second set:
positional notation with a digit for each factor.

* `Numbers.lt_iff`, `Numbers.bijOn`: what a numbering is good for.
* `Numbers.prod`: the numbering of a product.
* `numbers_range`: the numbers from `a` on.
-/

/-- `f` numbers `S` from 0 to `N - 1`, in the order `r`. -/
structure Numbers {α : Type*} (r : α → α → Prop) (S : Set α) (N : ℕ) (f : α → ℕ) : Prop where
  lt : ∀ a ∈ S, f a < N
  onto : ∀ n < N, ∃ a ∈ S, f a = n
  mono : ∀ a ∈ S, ∀ b ∈ S, r a b → f a < f b
  total : ∀ a ∈ S, ∀ b ∈ S, r a b ∨ a = b ∨ r b a

namespace Numbers

variable {α β : Type*} {r : α → α → Prop} {q : β → β → Prop} {S S' : Set α} {T : Set β}
  {N M : ℕ} {f f' : α → ℕ} {g : β → ℕ}

/-- The order is the order of the numbers. -/
theorem lt_iff (h : Numbers r S N f) {a b : α} (ha : a ∈ S) (hb : b ∈ S) : r a b ↔ f a < f b := by
  constructor
  · exact h.mono a ha b hb
  · intro hlt
    rcases h.total a ha b hb with hab | rfl | hba
    · exact hab
    · exact absurd hlt (Nat.lt_irrefl _)
    · exact absurd (h.mono b hb a ha hba) (Nat.lt_asymm hlt)

theorem inj (h : Numbers r S N f) : Set.InjOn f S := by
  intro a ha b hb heq
  rcases h.total a ha b hb with hab | hab | hba
  · exact absurd (h.mono a ha b hb hab) (by rw [heq]; exact Nat.lt_irrefl _)
  · exact hab
  · exact absurd (h.mono b hb a ha hba) (by rw [heq]; exact Nat.lt_irrefl _)

theorem bijOn (h : Numbers r S N f) : Set.BijOn f S (Set.Iio N) :=
  ⟨h.lt, h.inj, h.onto⟩

/-- The set and the numbers may be written in another way. -/
theorem congr (h : Numbers r S N f) (hS : ∀ a, a ∈ S' ↔ a ∈ S) (hf : ∀ a ∈ S', f' a = f a) :
    Numbers r S' N f' := by
  constructor
  · intro a ha
    rw [hf a ha]
    exact h.lt a ((hS a).mp ha)
  · intro n hn
    obtain ⟨a, ha, hfa⟩ := h.onto n hn
    have haT := (hS a).mpr ha
    exact ⟨a, haT, (hf a haT).trans hfa⟩
  · intro a ha b hb hab
    rw [hf a ha, hf b hb]
    exact h.mono a ((hS a).mp ha) b ((hS b).mp hb) hab
  · intro a ha b hb
    exact h.total a ((hS a).mp ha) b ((hS b).mp hb)

/-- Pairs in lexicographic order. -/
theorem prod (hf : Numbers r S N f) (hg : Numbers q T M g) :
    Numbers (Prod.Lex r q) (S ×ˢ T) (N * M) fun p => f p.1 * M + g p.2 := by
  constructor
  · rintro ⟨a, b⟩ ⟨ha, hb⟩
    have hfirst := Nat.mul_le_mul_right M (Nat.succ_le_of_lt (hf.lt a ha))
    have hsecond := hg.lt b hb
    rw [Nat.succ_mul] at hfirst
    show f a * M + g b < N * M
    omega
  · intro n hn
    have hM : 0 < M := Nat.pos_of_ne_zero fun h => by simp [h] at hn
    obtain ⟨a, ha, hfa⟩ := hf.onto (n / M) ((Nat.div_lt_iff_lt_mul hM).mpr hn)
    obtain ⟨b, hb, hgb⟩ := hg.onto (n % M) (Nat.mod_lt n hM)
    refine ⟨(a, b), ⟨ha, hb⟩, ?_⟩
    show f a * M + g b = n
    rw [hfa, hgb]
    exact Nat.div_add_mod' n M
  · rintro ⟨a, b⟩ ⟨ha, hb⟩ ⟨a', b'⟩ ⟨ha', hb'⟩ hlex
    show f a * M + g b < f a' * M + g b'
    rcases Prod.lex_def.mp hlex with hfirst | ⟨heq, hsecond⟩
    · have hweight := Nat.mul_le_mul_right M (Nat.succ_le_of_lt (hf.mono a ha a' ha' hfirst))
      have hdigit := hg.lt b hb
      rw [Nat.succ_mul] at hweight
      omega
    · obtain rfl : a = a' := heq
      exact Nat.add_lt_add_left (hg.mono b hb b' hb' hsecond) _
  · rintro ⟨a, b⟩ ⟨ha, hb⟩ ⟨a', b'⟩ ⟨ha', hb'⟩
    rcases hf.total a ha a' ha' with hlt | rfl | hgt
    · exact .inl (.left _ _ hlt)
    · rcases hg.total b hb b' hb' with hlt | rfl | hgt
      · exact .inl (.right _ hlt)
      · exact .inr (.inl rfl)
      · exact .inr (.inr (.right _ hgt))
    · exact .inr (.inr (.left _ _ hgt))

end Numbers

/-- `N` numbers from `a` on. -/
theorem numbers_range (a N : ℕ) :
    Numbers (· < ·) {n | a ≤ n ∧ n < a + N} N fun n => n - a := by
  constructor
  · rintro n ⟨hle, hlt⟩
    omega
  · intro n hn
    exact ⟨a + n, ⟨Nat.le_add_right a n, Nat.add_lt_add_left hn a⟩, Nat.add_sub_cancel_left a n⟩
  · rintro n ⟨hn, -⟩ m ⟨hm, -⟩ hlt
    omega
  · rintro n - m -
    exact Nat.lt_trichotomy n m
