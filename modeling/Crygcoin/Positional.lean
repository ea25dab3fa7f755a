import Mathlib.Data.Nat.Digits.Lemmas
import Mathlib.Tactic.Ring

namespace Crygcoin

/-! Fixed-width positional numerals, and lists cut into blocks of fixed width. `Nat.ofDigits b ds`
is the number the digits `ds` stand for, least significant first; `lowDigits b k n` are the `k`
lowest digits of `n` in base `b`. The two are inverse on numbers below `b ^ k` and on digit lists
of length `k` with every digit below `b`, which is what a block code of fixed width needs in both
directions. `chunks k n l` are the first `n` blocks of `k` elements of `l`. -/

section LowDigits

variable (b : Nat)

/-- The `k` lowest digits of `n` in base `b`, least significant first. -/
def lowDigits : Nat → Nat → List Nat
  | 0, _ => []
  | k + 1, n => n % b :: lowDigits k (n / b)

@[simp] theorem lowDigits_zero_left (n : Nat) : lowDigits b 0 n = [] := rfl

theorem lowDigits_succ (k n : Nat) : lowDigits b (k + 1) n = n % b :: lowDigits b k (n / b) := rfl

@[simp] theorem length_lowDigits : ∀ k n : Nat, (lowDigits b k n).length = k
  | 0, _ => rfl
  | k + 1, n => by rw [lowDigits_succ, List.length_cons, length_lowDigits k (n / b)]

theorem lowDigits_lt (hb : 0 < b) : ∀ (k n : Nat), ∀ d ∈ lowDigits b k n, d < b
  | 0, _ => by simp
  | k + 1, n => by
    intro d hd
    rw [lowDigits_succ, List.mem_cons] at hd
    rcases hd with rfl | hd
    · exact Nat.mod_lt _ hb
    · exact lowDigits_lt hb k (n / b) d hd

theorem lowDigits_zero : ∀ k : Nat, lowDigits b k 0 = List.replicate k 0
  | 0 => rfl
  | k + 1 => by rw [lowDigits_succ, Nat.zero_mod, Nat.zero_div, lowDigits_zero k, List.replicate_succ]

theorem ofDigits_lowDigits : ∀ k n : Nat, Nat.ofDigits b (lowDigits b k n) = n % b ^ k
  | 0, n => by rw [lowDigits_zero_left, Nat.ofDigits_nil, Nat.pow_zero, Nat.mod_one]
  | k + 1, n => by
    rw [lowDigits_succ, Nat.ofDigits_cons, ofDigits_lowDigits k, Nat.pow_succ', Nat.mod_mul]

theorem lowDigits_ofDigits : ∀ ds : List Nat, (∀ d ∈ ds, d < b) →
    lowDigits b ds.length (Nat.ofDigits b ds) = ds
  | [], _ => rfl
  | d :: ds, h => by
    have hd : d < b := h d List.mem_cons_self
    have hb : 0 < b := by omega
    have hlow : (d + b * Nat.ofDigits b ds) % b = d := by
      rw [Nat.add_mul_mod_self_left, Nat.mod_eq_of_lt hd]
    have hhigh : (d + b * Nat.ofDigits b ds) / b = Nat.ofDigits b ds := by
      rw [Nat.add_mul_div_left _ _ hb, Nat.div_eq_of_lt hd, Nat.zero_add]
    rw [List.length_cons, Nat.ofDigits_cons, lowDigits_succ, hlow, hhigh,
      lowDigits_ofDigits ds (fun x hx => h x (List.mem_cons_of_mem _ hx))]

end LowDigits

section Chunks

variable {α : Type} (k : Nat)

/-- The first `n` blocks of `k` elements of a list. -/
def chunks (n : Nat) (l : List α) : List (List α) :=
  (List.range n).map fun i => (l.drop (i * k)).take k

@[simp] theorem length_chunks (n : Nat) (l : List α) : (chunks k n l).length = n := by
  simp [chunks]

theorem chunks_succ (n : Nat) (l : List α) : chunks k (n + 1) l = chunks k n l ++ [(l.drop (n * k)).take k] := by
  rw [chunks, List.range_succ, List.map_append, List.map_singleton, ← chunks]

theorem chunks_map {β : Type} (f : α → β) (n : Nat) (l : List α) :
    chunks k n (l.map f) = (chunks k n l).map (List.map f) := by
  simp only [chunks, List.map_map, ← List.map_drop, ← List.map_take]
  rfl

theorem length_of_mem_chunks {n : Nat} {l : List α} (h : n * k ≤ l.length) :
    ∀ b ∈ chunks k n l, b.length = k := by
  intro b hb
  obtain ⟨i, hi, rfl⟩ := List.mem_map.mp hb
  have hi : i < n := List.mem_range.mp hi
  have : (i + 1) * k ≤ n * k := Nat.mul_le_mul_right k hi
  simp only [List.length_take, List.length_drop]
  rw [Nat.succ_mul] at this
  omega

theorem flatten_chunks_append_drop : ∀ (n : Nat) (l : List α), n * k ≤ l.length →
    (chunks k n l).flatten ++ l.drop (n * k) = l
  | 0, l, _ => by simp [chunks]
  | n + 1, l, h => by
    have hprev := flatten_chunks_append_drop n l (by rw [Nat.succ_mul] at h; omega)
    rw [chunks_succ, List.flatten_append, List.flatten_singleton, List.append_assoc, Nat.succ_mul,
      ← List.drop_drop, List.take_append_drop, hprev]

theorem length_flatten_of_forall_length {bs : List (List α)} (h : ∀ b ∈ bs, b.length = k) :
    bs.flatten.length = bs.length * k := by
  rw [List.length_flatten, List.map_congr_left h]
  simp [Nat.mul_comm]

theorem chunks_flatten_append : ∀ (bs : List (List α)) (rest : List α), (∀ b ∈ bs, b.length = k) →
    chunks k bs.length (bs.flatten ++ rest) = bs := by
  intro bs
  induction bs using List.reverseRecOn with
  | nil => intro _ _; rfl
  | append_singleton bs b ih =>
    intro rest h
    have hb : b.length = k := h b (by simp)
    have hbs : ∀ c ∈ bs, c.length = k := fun c hc => h c (by simp [hc])
    have hflat : bs.flatten.length = bs.length * k := length_flatten_of_forall_length k hbs
    rw [List.length_append, List.length_singleton, chunks_succ, List.flatten_append, List.flatten_singleton,
      List.append_assoc, ih _ hbs, ← hflat, List.drop_left, ← hb, List.take_left]

end Chunks

end Crygcoin
