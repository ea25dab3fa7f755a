import Mathlib.Data.List.Perm.Basic
import Mathlib.Data.List.Nodup

namespace Crygcoin

open scoped List

/-! Fisher–Yates by swap with the last element. A draw `r` from a list `l` takes `l[r]` out and
moves the last element into its place (`swapRemove l r`), so the list shrinks by one and keeps
its other positions. `fisherYates l rs` is the sequence of elements a run of draws `rs` takes.
When the `i`-th draw lies below `l.length - i` (`DrawsFit`), the run always succeeds; every run
takes the prefix of a permutation of `l`; and on a duplicate-free list the draws are determined
by what they take, while every permutation is taken by some full run: full runs are in bijection
with the orderings of `l`. -/

section SwapRemove

variable {α : Type}

/-- `l` with position `r` overwritten by the last element, and the last position dropped. -/
def swapRemove (l : List α) (r : Nat) : List α :=
  match l.getLast? with
  | none => []
  | some last => l.dropLast.set r last

@[simp] theorem swapRemove_nil (r : Nat) : swapRemove ([] : List α) r = [] := rfl

@[simp] theorem swapRemove_concat (init : List α) (last : α) (r : Nat) :
    swapRemove (init ++ [last]) r = init.set r last := by
  simp [swapRemove]

@[simp] theorem length_swapRemove (l : List α) (r : Nat) : (swapRemove l r).length = l.length - 1 := by
  rcases List.eq_nil_or_concat' l with rfl | ⟨init, last, rfl⟩
  · rfl
  · simp

theorem perm_swapRemove {l : List α} {r : Nat} (hr : r < l.length) : l[r] :: swapRemove l r ~ l := by
  rcases List.eq_nil_or_concat' l with rfl | ⟨init, last, rfl⟩
  · simp at hr
  rw [swapRemove_concat]
  have hlast : init ++ [last] ~ last :: init := List.perm_append_singleton last init
  rcases Nat.lt_or_ge r init.length with hinit | hinit
  · -- the drawn position is inside `init`: the last element takes its place
    have hset := List.set_perm_cons_eraseIdx hinit last
    have hdrawn : (init ++ [last])[r] = init[r] := List.getElem_append_left hinit
    rw [hdrawn]
    calc init[r] :: init.set r last
        ~ init[r] :: last :: init.eraseIdx r := hset.cons _
      _ ~ last :: init[r] :: init.eraseIdx r := List.Perm.swap _ _ _
      _ ~ last :: init := (List.getElem_cons_eraseIdx_perm hinit).cons _
      _ ~ init ++ [last] := hlast.symm
  · -- the drawn position is the last one: nothing moves
    have hr' : r = init.length := by simp at hr; omega
    subst hr'
    simpa [List.set_eq_of_length_le] using hlast.symm

theorem nodup_swapRemove {l : List α} (hl : l.Nodup) {r : Nat} (hr : r < l.length) :
    (swapRemove l r).Nodup :=
  ((perm_swapRemove hr).nodup_iff.mpr hl).of_cons

end SwapRemove

section Draws

/-- The `i`-th draw of `rs` lies in `[0, k - 1 - i]`, below the length of what is left of a list
of length `k`. -/
def DrawsFit (k : Nat) (rs : List Nat) : Prop :=
  ∀ i (hi : i < rs.length), rs[i] < k - i

instance (k : Nat) (rs : List Nat) : Decidable (DrawsFit k rs) :=
  inferInstanceAs (Decidable (∀ i (hi : i < rs.length), rs[i] < k - i))

@[simp] theorem drawsFit_nil (k : Nat) : DrawsFit k [] := fun _ hi => absurd hi (by simp)

theorem drawsFit_cons {k r : Nat} {rs : List Nat} : DrawsFit k (r :: rs) ↔ r < k ∧ DrawsFit (k - 1) rs := by
  constructor
  · intro h
    refine ⟨h 0 (Nat.zero_lt_succ _), fun i hi => ?_⟩
    have := h (i + 1) (by simpa using hi)
    simp only [List.getElem_cons_succ] at this
    omega
  · rintro ⟨hr, hrs⟩ i hi
    cases i with
    | zero => simpa using hr
    | succ i =>
      have := hrs i (by simpa using hi)
      simp only [List.getElem_cons_succ]
      omega

theorem DrawsFit.length_le {k : Nat} {rs : List Nat} (h : DrawsFit k rs) : rs.length ≤ k := by
  by_contra hlt
  have := h k (by omega)
  omega

theorem DrawsFit.take {k : Nat} {rs : List Nat} (h : DrawsFit k rs) (m : Nat) : DrawsFit k (rs.take m) :=
  fun i hi => by simpa using h i (by simp at hi; omega)

end Draws

section FisherYates

variable {α : Type}

/-- The elements a run of draws takes, one `swapRemove` per draw; `none` once a draw falls outside
what is left. -/
def fisherYates (l : List α) : List Nat → Option (List α)
  | [] => some []
  | r :: rs => do
    let drawn ← l[r]?
    let rest ← fisherYates (swapRemove l r) rs
    pure (drawn :: rest)

@[simp] theorem fisherYates_nil (l : List α) : fisherYates l [] = some [] := rfl

theorem fisherYates_cons_eq_some {l : List α} {r : Nat} {rs : List Nat} {out : List α} :
    fisherYates l (r :: rs) = some out ↔
      ∃ hr : r < l.length, ∃ rest, fisherYates (swapRemove l r) rs = some rest ∧ out = l[r] :: rest := by
  simp only [fisherYates, Option.bind_eq_bind]
  constructor
  · intro h
    obtain ⟨drawn, hdrawn, h⟩ := Option.bind_eq_some_iff.mp h
    obtain ⟨rest, hrest, h⟩ := Option.bind_eq_some_iff.mp h
    obtain ⟨hr, rfl⟩ := List.getElem?_eq_some_iff.mp hdrawn
    exact ⟨hr, rest, hrest, (Option.some.inj h).symm⟩
  · rintro ⟨hr, rest, hrest, rfl⟩
    simp [List.getElem?_eq_getElem hr, hrest]

theorem fisherYates_of_drawsFit :
    ∀ {l : List α} {rs : List Nat}, DrawsFit l.length rs → ∃ out, fisherYates l rs = some out ∧ out.length = rs.length
  | _, [], _ => ⟨[], rfl, rfl⟩
  | l, r :: rs, h => by
    obtain ⟨hr, hrs⟩ := drawsFit_cons.mp h
    have hrs' : DrawsFit (swapRemove l r).length rs := by rwa [length_swapRemove]
    obtain ⟨rest, hrest, hlen⟩ := fisherYates_of_drawsFit hrs'
    exact ⟨l[r] :: rest, fisherYates_cons_eq_some.mpr ⟨hr, rest, hrest, rfl⟩, by simp [hlen]⟩

theorem fisherYates_perm_append :
    ∀ {l : List α} {rs : List Nat} {out : List α}, fisherYates l rs = some out → ∃ rest, out ++ rest ~ l
  | l, [], out, h => by
    cases Option.some.inj h
    exact ⟨l, List.Perm.refl l⟩
  | l, r :: rs, out, h => by
    obtain ⟨hr, out', hout', rfl⟩ := fisherYates_cons_eq_some.mp h
    obtain ⟨rest, hrest⟩ := fisherYates_perm_append hout'
    exact ⟨rest, (hrest.cons _).trans (perm_swapRemove hr)⟩

theorem fisherYates_perm {l : List α} {rs : List Nat} {out : List α} (h : fisherYates l rs = some out)
    (hlen : out.length = l.length) : out ~ l := by
  obtain ⟨rest, hrest⟩ := fisherYates_perm_append h
  have hnil : rest = [] := by
    have := hrest.length_eq
    simp only [List.length_append, hlen] at this
    exact List.eq_nil_of_length_eq_zero (by omega)
  simpa [hnil] using hrest

theorem fisherYates_injective :
    ∀ {l : List α} {rs rs' : List Nat} {out : List α}, l.Nodup →
      fisherYates l rs = some out → fisherYates l rs' = some out → rs = rs'
  | _, [], [], _, _, _, _ => rfl
  | _, [], _ :: _, _, _, h, h' => by
    cases Option.some.inj h
    obtain ⟨_, _, _, hout⟩ := fisherYates_cons_eq_some.mp h'
    cases hout
  | _, _ :: _, [], _, _, h, h' => by
    cases Option.some.inj h'
    obtain ⟨_, _, _, hout⟩ := fisherYates_cons_eq_some.mp h
    cases hout
  | l, r :: rs, r' :: rs', out, hl, h, h' => by
    obtain ⟨hr, rest, hrest, rfl⟩ := fisherYates_cons_eq_some.mp h
    obtain ⟨hr', rest', hrest', hout⟩ := fisherYates_cons_eq_some.mp h'
    obtain ⟨hdrawn, rfl⟩ := List.cons.inj hout
    -- one position holds the element drawn first
    have hrr : r = r' := (hl.getElem_inj_iff).mp hdrawn
    subst hrr
    rw [fisherYates_injective (nodup_swapRemove hl hr) hrest hrest']

theorem fisherYates_surjective :
    ∀ {l p : List α}, l.Nodup → p ~ l →
      ∃ rs, DrawsFit l.length rs ∧ rs.length = l.length ∧ fisherYates l rs = some p
  | l, [], _, hp => by
    cases List.perm_nil.mp hp.symm
    exact ⟨[], drawsFit_nil 0, rfl, rfl⟩
  | l, x :: p, hl, hp => by
    obtain ⟨r, hr, hx⟩ := List.getElem_of_mem (hp.subset List.mem_cons_self)
    have hrest : p ~ swapRemove l r := by
      have := hp.trans (perm_swapRemove hr).symm
      rw [hx] at this
      exact this.cons_inv
    obtain ⟨rs, hfit, hlen, hrun⟩ := fisherYates_surjective (nodup_swapRemove hl hr) hrest
    rw [length_swapRemove] at hfit hlen
    refine ⟨r :: rs, drawsFit_cons.mpr ⟨hr, hfit⟩, by simp [hlen]; omega, ?_⟩
    exact fisherYates_cons_eq_some.mpr ⟨hr, p, hrun, by rw [hx]⟩

theorem fisherYates_take :
    ∀ {l : List α} {rs : List Nat} {out : List α} (m : Nat), fisherYates l rs = some out →
      fisherYates l (rs.take m) = some (out.take m)
  | _, [], _, _, h => by cases Option.some.inj h; simp
  | _, _ :: _, _, 0, _ => rfl
  | _, r :: rs, _, m + 1, h => by
    obtain ⟨hr, rest, hrest, rfl⟩ := fisherYates_cons_eq_some.mp h
    exact fisherYates_cons_eq_some.mpr ⟨hr, rest.take m, fisherYates_take m hrest, rfl⟩

theorem fisherYates_surjective_take {l p : List α} (hl : l.Nodup) (hp : p.Nodup) (hsub : p ⊆ l) :
    ∃ rs, DrawsFit l.length rs ∧ rs.length = p.length ∧ fisherYates l rs = some p := by
  -- complete the selection to an ordering of the whole list, and cut that run after |p| draws
  obtain ⟨p', hp', hsublist⟩ := List.subperm_of_subset hp hsub
  obtain ⟨q, hq⟩ := hsublist.exists_perm_append
  have hperm : p ++ q ~ l := (hq.trans (hp'.append_right q)).symm
  obtain ⟨rs, hfit, hlen, hrun⟩ := fisherYates_surjective hl hperm
  have hle : p.length ≤ l.length := (List.subperm_of_subset hp hsub).length_le
  refine ⟨rs.take p.length, hfit.take _, by simp [hlen, hle], ?_⟩
  simpa using fisherYates_take p.length hrun

end FisherYates

end Crygcoin
