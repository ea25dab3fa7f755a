import Mathlib.Data.List.Basic

namespace Crygcoin

section Decoder

variable {β α : Type}

/-- Reads exactly `n` tokens, failing on a short input. -/
def readFixed (n : Nat) (input : List β) : Option (List β × List β) :=
  if n ≤ input.length then some (input.take n, input.drop n) else none

/-- Reads `n` values one after another. -/
def readCount (read : List β → Option (α × List β)) : Nat → List β → Option (List α × List β)
  | 0, input => some ([], input)
  | n + 1, input => do
    let (x, input) ← read input
    let (xs, input) ← readCount read n input
    pure (x :: xs, input)

/-- `read` undoes `write` on every value satisfying `p`, whatever follows it. -/
def Inverts (p : α → Prop) (write : α → List β) (read : List β → Option (α × List β)) : Prop :=
  ∀ x, p x → ∀ rest, read (write x ++ rest) = some (x, rest)

/-- Every input `read` accepts is `write` of the value read, followed by the rest. -/
def Exact (write : α → List β) (read : List β → Option (α × List β)) : Prop :=
  ∀ {input x rest}, read input = some (x, rest) → input = write x ++ rest

@[simp] theorem readFixed_append {n : Nat} {bs rest : List β} (h : bs.length = n) :
    readFixed n (bs ++ rest) = some (bs, rest) := by
  simp [readFixed, ← h]

theorem readFixed_exact {n : Nat} {input bs rest : List β}
    (h : readFixed n input = some (bs, rest)) : bs.length = n ∧ input = bs ++ rest := by
  unfold readFixed at h
  split at h
  next hn =>
    cases Option.some.inj h
    exact ⟨List.length_take_of_le hn, (List.take_append_drop n input).symm⟩
  next => simp at h

/-- Reads exactly `n` tokens into a vector. -/
def readVector (n : Nat) (input : List β) : Option (Vector β n × List β) :=
  if h : n ≤ input.length then some (⟨(input.take n).toArray, by simp [h]⟩, input.drop n) else none

@[simp] theorem readVector_append {n : Nat} (v : Vector β n) (rest : List β) :
    readVector n (v.toList ++ rest) = some (v, rest) := by
  have hl : v.toList.length = n := by simp
  simp only [readVector, List.length_append, hl, Nat.le_add_right, dite_true,
    List.take_left' hl, List.drop_left' hl, Option.some.injEq, Prod.mk.injEq, and_true]
  exact Vector.toList_inj.mp (by simp)

theorem readVector_exact {n : Nat} {input rest : List β} {v : Vector β n}
    (h : readVector n input = some (v, rest)) : input = v.toList ++ rest := by
  unfold readVector at h
  split at h
  next hn =>
    obtain ⟨rfl, rfl⟩ := Prod.mk.inj (Option.some.inj h)
    simp
  next => simp at h

@[simp] theorem readCount_zero (read : List β → Option (α × List β)) (input : List β) :
    readCount read 0 input = some ([], input) := rfl

theorem readCount_succ_eq_some {read : List β → Option (α × List β)} {n : Nat}
    {input : List β} {ys : List α} {rest : List β}
    (h : readCount read (n + 1) input = some (ys, rest)) :
    ∃ x xs mid, read input = some (x, mid) ∧ readCount read n mid = some (xs, rest) ∧
      ys = x :: xs := by
  simp only [readCount, Option.bind_eq_bind, Option.bind_eq_some_iff] at h
  obtain ⟨⟨x, mid⟩, hx, ⟨xs, rest'⟩, hxs, he⟩ := h
  simp only [pure, Option.some.injEq, Prod.mk.injEq] at he
  obtain ⟨rfl, rfl⟩ := he
  exact ⟨x, xs, mid, hx, hxs, rfl⟩

theorem readCount_inverts {p : α → Prop} {write : α → List β} {read : List β → Option (α × List β)}
    (h : Inverts p write read) :
    ∀ (xs : List α), (∀ x ∈ xs, p x) → ∀ rest,
      readCount read xs.length (xs.flatMap write ++ rest) = some (xs, rest) := by
  intro xs
  induction xs with
  | nil => intro _ rest; rfl
  | cons x xs ih =>
    intro hp rest
    have hx := h x (hp x (by simp)) (xs.flatMap write ++ rest)
    have hxs := ih (fun y hy => hp y (by simp [hy])) rest
    simp [readCount, List.append_assoc, hx, hxs]

theorem readCount_exact {write : α → List β} {read : List β → Option (α × List β)}
    (h : Exact write read) :
    ∀ n {input : List β} {xs : List α} {rest : List β},
      readCount read n input = some (xs, rest) → xs.length = n ∧ input = xs.flatMap write ++ rest := by
  intro n
  induction n with
  | zero =>
    intro input xs rest hr
    cases Option.some.inj hr
    simp
  | succ n ih =>
    intro input xs rest hr
    obtain ⟨x, ys, mid, hx, hys, rfl⟩ := readCount_succ_eq_some hr
    obtain ⟨hl, hm⟩ := ih hys
    refine ⟨by simp [hl], ?_⟩
    rw [h hx, hm]
    simp

end Decoder

end Crygcoin
