import Mathlib.Logic.Basic
import Mathlib.Data.List.Nodup

namespace Crygcoin

open scoped List

/-! Code that checks its input and returns an error at the first check that fails, in the `Except`
monad: `failIf` for one check, and the lemmas that take a successful run apart into the facts each
step established. -/

def failIf {ε : Type} (failed : Prop) [Decidable failed] (error : ε) : Except ε Unit :=
  if failed then throw error else pure ()

section

variable {ε ε' α β : Type}

@[simp] theorem failIf_eq_ok {failed : Prop} [Decidable failed] {error : ε} {u : Unit} :
    failIf failed error = .ok u ↔ ¬failed := by
  unfold failIf
  split <;> simp_all [throw, throwThe, MonadExceptOf.throw, pure, Except.pure]

@[simp] theorem bind_eq_ok {x : Except ε α} {f : α → Except ε β} {b : β} :
    x >>= f = .ok b ↔ ∃ a, x = .ok a ∧ f a = .ok b := by
  cases x <;> simp [bind, Except.bind]

theorem ok_bind {a : α} {f : α → Except ε β} : (Except.ok a >>= f) = f a := rfl

theorem error_bind {error : ε} {f : α → Except ε β} : (Except.error error >>= f) = .error error := rfl

@[simp] theorem pure_eq_ok {a b : α} : (pure a : Except ε α) = .ok b ↔ a = b := by
  simp [pure, Except.pure]

@[simp] theorem throw_ne_ok {error : ε} {b : α} : (throw error : Except ε α) ≠ .ok b := by
  simp [throw, throwThe, MonadExceptOf.throw]

theorem mapError_eq_ok {f : ε → ε'} {x : Except ε α} {a : α} : x.mapError f = .ok a ↔ x = .ok a := by
  cases x with
  | error e => constructor <;> intro h <;> cases h
  | ok b =>
    constructor
    · intro h
      cases h
      rfl
    · intro h
      cases h
      rfl

/-- What every round of a loop keeps, the whole loop keeps. -/
theorem foldl_invariant (P : β → Prop) {f : β → α → β} (hstep : ∀ b a, P b → P (f b a)) :
    ∀ {l : List α} {b : β}, P b → P (l.foldl f b)
  | [], _, hb => hb
  | a :: _, b, hb => by
    rw [List.foldl_cons]
    exact foldl_invariant P hstep (hstep b a hb)

/-! Loops whose every round may fail (`List.foldlM` in `Option`): a successful run taken apart
round by round, and what every successful round keeps. -/

theorem foldlM_option_cons_eq_some {f : β → α → Option β} {b c : β} {a : α} {l : List α} :
    (a :: l).foldlM f b = some c ↔ ∃ b', f b a = some b' ∧ l.foldlM f b' = some c := by
  rw [List.foldlM_cons]
  cases f b a <;> simp

theorem foldlM_option_invariant (P : β → Prop) {f : β → α → Option β}
    (hstep : ∀ b a b', P b → f b a = some b' → P b') :
    ∀ {l : List α} {b c : β}, P b → l.foldlM f b = some c → P c
  | [], b, c, hb, h => by
    simp only [List.foldlM_nil, Option.pure_def, Option.some.injEq] at h
    exact h ▸ hb
  | a :: l, b, c, hb, h => by
    obtain ⟨b', hround, hrest⟩ := foldlM_option_cons_eq_some.mp h
    exact foldlM_option_invariant P hstep (hstep b a b' hb hround) hrest

/-! Loops that pick some of the elements they run over (a `List.foldl` whose round adds its element
to what was picked, or not): what the picked elements satisfy. -/

theorem foldl_picks (P : β → List α → Prop) {f : β → α → β} :
    ∀ {l : List α} {b : β} {picked : List α},
      (∀ b picked a, a ∈ l → P b picked → ∃ added, added <+ [a] ∧ P (f b a) (picked ++ added)) → P b picked →
      ∃ added, added <+ l ∧ P (l.foldl f b) (picked ++ added)
  | [], b, picked, _, hb => ⟨[], List.Sublist.slnil, by simpa using hb⟩
  | a :: l, b, picked, hstep, hb => by
    obtain ⟨added, hadded, hround⟩ := hstep b picked a List.mem_cons_self hb
    obtain ⟨rest, hrest, hrun⟩ := foldl_picks P (l := l) (fun b picked a ha => hstep b picked a (List.mem_cons_of_mem _ ha)) hround
    refine ⟨added ++ rest, ?_, by simpa using hrun⟩
    -- the round added its own element or nothing
    rcases List.sublist_singleton.mp hadded with rfl | rfl
    · exact hrest.cons a
    · exact hrest.cons_cons a

theorem nodup_of_nodup_flatMap {l : List α} {g : α → List β} (h : (l.flatMap g).Nodup)
    (hne : ∀ a ∈ l, g a ≠ []) : l.Nodup := by
  refine (List.nodup_flatMap.mp h).2.imp_of_mem ?_
  rintro a b ha - hdisjoint rfl
  obtain ⟨k, hk⟩ := List.exists_mem_of_ne_nil _ (hne a ha)
  exact hdisjoint hk hk

end

end Crygcoin
