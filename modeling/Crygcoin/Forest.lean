import Mathlib.Data.Finset.Card
import Mathlib.Data.List.Nodup

namespace Crygcoin

/-! A forest kept in a list: each node names its parent by its position in the list, and a
root names none. The walk from a node to its root is computed with fuel; `IsPath` is the walk
as a relation, and the lemmas below say when the computed walk is that path and how the paths
change when nodes are appended, rewritten or re-parented. -/

section Forest

variable {σ : Type} (parent : σ → Option Nat)

/-- The positions met from `p` by following parent links, `p` first, for at most `fuel` nodes. -/
def chainFrom (nodes : List σ) : Nat → Nat → List Nat
  | 0, _ => []
  | fuel + 1, p =>
    match nodes[p]? with
    | none => []
    | some x =>
      match parent x with
      | none => [p]
      | some q => p :: chainFrom nodes fuel q

/-- `ps` is the walk from `p` to a root. -/
inductive IsPath (nodes : List σ) : Nat → List Nat → Prop
  | root {p : Nat} {x : σ} : nodes[p]? = some x → parent x = none → IsPath nodes p [p]
  | cons {p q : Nat} {x : σ} {ps : List Nat} : nodes[p]? = some x → parent x = some q →
      IsPath nodes q ps → IsPath nodes p (p :: ps)

/-- Every node has a walk to a root: the parent links have no cycle and point into the list. -/
def Rooted (nodes : List σ) : Prop :=
  ∀ p < nodes.length, ∃ ps, IsPath parent nodes p ps

/-- `ps` with `u` put between `c` and the node before it: the walk once `u` is inserted above
`c`'s children. -/
def reroute (c u : Nat) : List Nat → List Nat
  | p :: rest@(q :: _) => if q = c then p :: u :: reroute c u rest else p :: reroute c u rest
  | ps => ps

@[simp] theorem reroute_singleton (c u p : Nat) : reroute c u [p] = [p] := by
  simp [reroute]

variable {parent}

theorem IsPath.head {nodes : List σ} {p : Nat} {ps : List Nat} (h : IsPath parent nodes p ps) :
    ∃ rest, ps = p :: rest := by
  cases h with
  | root => exact ⟨[], rfl⟩
  | cons => exact ⟨_, rfl⟩

theorem IsPath.unique {nodes : List σ} {p : Nat} {ps qs : List Nat}
    (h : IsPath parent nodes p ps) (h' : IsPath parent nodes p qs) : ps = qs := by
  induction h generalizing qs with
  | root hx hp =>
    cases h' with
    | root => rfl
    | cons hy hq _ => simp_all
  | cons hx hq _ ih =>
    cases h' with
    | root hy hp => simp_all
    | cons hy hq' hrest =>
      rw [hx, Option.some.injEq] at hy
      subst hy
      rw [hq, Option.some.injEq] at hq'
      subst hq'
      rw [ih hrest]

theorem IsPath.lt_length {nodes : List σ} {p : Nat} {ps : List Nat}
    (h : IsPath parent nodes p ps) : ∀ q ∈ ps, q < nodes.length := by
  induction h with
  | root hx =>
    intro q hq
    rw [List.mem_singleton] at hq
    subst hq
    exact (List.getElem?_eq_some_iff.mp hx).1
  | cons hx _ _ ih =>
    intro q hq
    rcases List.mem_cons.mp hq with rfl | hq
    · exact (List.getElem?_eq_some_iff.mp hx).1
    · exact ih q hq

theorem IsPath.suffix {nodes : List σ} {p : Nat} {ps : List Nat}
    (h : IsPath parent nodes p ps) : ∀ q ∈ ps, ∃ qs, IsPath parent nodes q qs ∧ qs <:+ ps := by
  induction h with
  | root hx hp =>
    intro q hq
    rw [List.mem_singleton] at hq
    subst hq
    exact ⟨_, .root hx hp, List.suffix_refl _⟩
  | cons hx hq hrest ih =>
    intro r hr
    rcases List.mem_cons.mp hr with rfl | hr
    · exact ⟨_, .cons hx hq hrest, List.suffix_refl _⟩
    · obtain ⟨qs, hqs, hsuf⟩ := ih r hr
      exact ⟨qs, hqs, hsuf.trans (List.suffix_cons _ _)⟩

theorem IsPath.nodup {nodes : List σ} {p : Nat} {ps : List Nat}
    (h : IsPath parent nodes p ps) : ps.Nodup := by
  induction h with
  | root => exact List.nodup_singleton _
  | cons hx hq hrest ih =>
    refine List.nodup_cons.mpr ⟨fun hp => ?_, ih⟩
    -- a second visit of the start would make the whole walk a strict suffix of itself
    obtain ⟨qs, hqs, hsuf⟩ := hrest.suffix _ hp
    have heq := hqs.unique (.cons hx hq hrest)
    have hle := hsuf.length_le
    rw [heq, List.length_cons] at hle
    omega

theorem IsPath.length_le {nodes : List σ} {p : Nat} {ps : List Nat}
    (h : IsPath parent nodes p ps) : ps.length ≤ nodes.length := by
  have hsub : ps.toFinset ⊆ Finset.range nodes.length := by
    intro q hq
    exact Finset.mem_range.mpr (h.lt_length q (List.mem_toFinset.mp hq))
  calc ps.length = ps.toFinset.card := (List.toFinset_card_of_nodup h.nodup).symm
    _ ≤ (Finset.range nodes.length).card := Finset.card_le_card hsub
    _ = nodes.length := Finset.card_range _

theorem chainFrom_eq {nodes : List σ} {p : Nat} {ps : List Nat} {fuel : Nat}
    (h : IsPath parent nodes p ps) (hf : ps.length ≤ fuel) : chainFrom parent nodes fuel p = ps := by
  induction h generalizing fuel with
  | root hx hp =>
    obtain ⟨fuel, rfl⟩ : ∃ k, fuel = k + 1 := ⟨fuel - 1, by simp at hf; omega⟩
    simp [chainFrom, hx, hp]
  | cons hx hq _ ih =>
    obtain ⟨fuel, rfl⟩ : ∃ k, fuel = k + 1 := ⟨fuel - 1, by simp at hf; omega⟩
    simp only [List.length_cons, Nat.add_le_add_iff_right] at hf
    simp [chainFrom, hx, hq, ih hf]

theorem chainFrom_length {nodes : List σ} {p : Nat} {ps : List Nat}
    (h : IsPath parent nodes p ps) : chainFrom parent nodes nodes.length p = ps :=
  chainFrom_eq h h.length_le

theorem IsPath.frame {nodes nodes' : List σ} {p : Nat} {ps : List Nat}
    (h : IsPath parent nodes p ps)
    (hsame : ∀ q ∈ ps, nodes'[q]?.map parent = nodes[q]?.map parent) :
    IsPath parent nodes' p ps := by
  induction h with
  | root hx hp =>
    have hq := hsame _ List.mem_cons_self
    rw [hx, Option.map_some] at hq
    obtain ⟨y, hy, hpy⟩ := Option.map_eq_some_iff.mp hq
    exact .root hy (hpy.trans hp)
  | cons hx hq _ ih =>
    have hq' := hsame _ List.mem_cons_self
    rw [hx, Option.map_some] at hq'
    obtain ⟨y, hy, hpy⟩ := Option.map_eq_some_iff.mp hq'
    exact .cons hy (hpy.trans hq) (ih fun r hr => hsame r (List.mem_cons_of_mem _ hr))

theorem IsPath.append {nodes : List σ} {p : Nat} {ps : List Nat} (extra : List σ)
    (h : IsPath parent nodes p ps) : IsPath parent (nodes ++ extra) p ps :=
  h.frame fun q hq => by rw [List.getElem?_append_left (h.lt_length q hq)]

theorem Rooted.append {nodes : List σ} {y : σ} {q : Nat} (h : Rooted parent nodes)
    (hy : parent y = some q) (hq : q < nodes.length) : Rooted parent (nodes ++ [y]) := by
  intro p hp
  rw [List.length_append, List.length_singleton] at hp
  rcases Nat.lt_succ_iff_lt_or_eq.mp hp with hp | rfl
  · obtain ⟨ps, hps⟩ := h p hp
    exact ⟨ps, hps.append _⟩
  · obtain ⟨ps, hps⟩ := h q hq
    exact ⟨_, .cons (by simp) hy (hps.append _)⟩

theorem Rooted.set {nodes : List σ} {y : σ} {p : Nat} (h : Rooted parent nodes)
    (hy : nodes[p]?.map parent = some (parent y)) : Rooted parent (nodes.set p y) := by
  intro r hr
  rw [List.length_set] at hr
  obtain ⟨ps, hps⟩ := h r hr
  refine ⟨ps, hps.frame fun q _ => ?_⟩
  rw [List.getElem?_set]
  split
  · subst q
    have hlt : p < nodes.length := by
      rcases hq : nodes[p]? with _ | x
      · simp [hq] at hy
      · exact (List.getElem?_eq_some_iff.mp hq).1
    rw [List.getElem?_eq_getElem hlt, Option.map_some, Option.some.injEq] at hy
    simp [hlt, hy]
  · rfl

theorem IsPath.rerouted {nodes nodes' : List σ} {c : Nat} {p : Nat} {ps : List Nat}
    (hu : nodes'[nodes.length]?.map parent = some (some c))
    (hold : ∀ q < nodes.length, nodes'[q]?.map parent =
      nodes[q]?.map fun x => if parent x = some c then some nodes.length else parent x)
    (h : IsPath parent nodes p ps) : IsPath parent nodes' p (reroute c nodes.length ps) := by
  induction h with
  | root hx hp =>
    have hq := hold _ (List.getElem?_eq_some_iff.mp hx).1
    rw [hx, Option.map_some, hp] at hq
    obtain ⟨y, hy, hpy⟩ := Option.map_eq_some_iff.mp hq
    rw [reroute_singleton]
    exact .root hy (by simpa using hpy)
  | @cons p q x ps hx hq hrest ih =>
    have hq' := hold _ (List.getElem?_eq_some_iff.mp hx).1
    rw [hx, Option.map_some, hq] at hq'
    obtain ⟨y, hy, hpy⟩ := Option.map_eq_some_iff.mp hq'
    obtain ⟨rest, rfl⟩ := hrest.head
    by_cases hc : q = c
    · subst hc
      obtain ⟨z, hz, hpz⟩ := Option.map_eq_some_iff.mp hu
      have hup : IsPath parent nodes' nodes.length (nodes.length :: reroute q nodes.length (q :: rest)) :=
        .cons hz hpz ih
      simp only [reroute]
      exact .cons hy (by simpa using hpy) hup
    · simp only [reroute, if_neg hc]
      exact .cons hy (by simpa [hc] using hpy) ih

theorem Rooted.rerouted {nodes nodes' : List σ} {c : Nat} (h : Rooted parent nodes)
    (hlength : nodes'.length = nodes.length + 1) (hc : c < nodes.length)
    (hu : nodes'[nodes.length]?.map parent = some (some c))
    (hold : ∀ q < nodes.length, nodes'[q]?.map parent =
      nodes[q]?.map fun x => if parent x = some c then some nodes.length else parent x) :
    Rooted parent nodes' := by
  intro r hr
  rw [hlength] at hr
  rcases Nat.lt_succ_iff_lt_or_eq.mp hr with hr | rfl
  · obtain ⟨ps, hps⟩ := h r hr
    exact ⟨_, hps.rerouted hu hold⟩
  · -- the inserted node walks to `c` and on along `c`'s rerouted walk
    obtain ⟨ps, hps⟩ := h c hc
    obtain ⟨z, hz, hpz⟩ := Option.map_eq_some_iff.mp hu
    exact ⟨_, .cons hz hpz (hps.rerouted hu hold)⟩

theorem chainFrom_congr {nodes nodes' : List σ} (h : ∀ q : Nat, nodes[q]?.map parent = nodes'[q]?.map parent) :
    ∀ fuel p, chainFrom parent nodes fuel p = chainFrom parent nodes' fuel p := by
  intro fuel
  induction fuel with
  | zero => intro p; rfl
  | succ fuel ih =>
    intro p
    have hp := h p
    simp only [chainFrom]
    cases hx : nodes[p]? with
    | none =>
      rw [hx, Option.map_none] at hp
      rw [Option.map_eq_none_iff.mp hp.symm]
    | some x =>
      rw [hx, Option.map_some] at hp
      obtain ⟨y, hy, hxy⟩ := Option.map_eq_some_iff.mp hp.symm
      rw [hy]
      dsimp only
      rw [hxy]
      cases parent x with
      | none => rfl
      | some q =>
        dsimp only
        rw [ih q]

end Forest

theorem getElem?_concat_eq_some {α : Type} {l : List α} {a b : α} {i : Nat} (h : (l ++ [a])[i]? = some b) :
    (i < l.length ∧ l[i]? = some b) ∨ (i = l.length ∧ b = a) := by
  by_cases hi : i < l.length
  · rw [List.getElem?_append_left hi] at h
    exact Or.inl ⟨hi, h⟩
  · rw [List.getElem?_append_right (by omega)] at h
    have hlt := (List.getElem?_eq_some_iff.mp h).1
    simp only [List.length_singleton] at hlt
    rw [show i - l.length = 0 by omega, List.getElem?_singleton, if_pos rfl, Option.some.injEq] at h
    exact Or.inr ⟨by omega, h.symm⟩

theorem getElem?_set_eq_some {α : Type} {l : List α} {p q : Nat} {a c : α} (h : (l.set p a)[q]? = some c) :
    (q = p ∧ c = a) ∨ (q ≠ p ∧ l[q]? = some c) := by
  rw [List.getElem?_set] at h
  split at h
  next hpq =>
    split at h
    · exact Or.inl ⟨hpq.symm, (Option.some.inj h).symm⟩
    · cases h
  next hpq => exact Or.inr ⟨Ne.symm hpq, h⟩

section Replace

variable {α : Type} [DecidableEq α]

theorem mem_of_mem_replace {l : List α} {a b x : α} (h : x ∈ l.replace a b) : x = b ∨ x ∈ l := by
  induction l with
  | nil => cases h
  | cons y l ih =>
    rw [List.replace_cons] at h
    by_cases hay : a = y
    · rw [hay, beq_self_eq_true, List.mem_cons] at h
      rcases h with rfl | hx
      · exact .inl rfl
      · exact .inr (List.mem_cons_of_mem y hx)
    · rw [beq_false_of_ne hay, List.mem_cons] at h
      rcases h with rfl | hx
      · exact .inr List.mem_cons_self
      · rcases ih hx with rfl | hx
        · exact .inl rfl
        · exact .inr (List.mem_cons_of_mem y hx)

theorem mem_replace_of_nodup {l : List α} {a b x : α} (hl : l.Nodup) (ha : a ∈ l) :
    x ∈ l.replace a b ↔ x = b ∨ (x ∈ l ∧ x ≠ a) := by
  induction l with
  | nil => cases ha
  | cons y l ih =>
    obtain ⟨hy, hl⟩ := List.nodup_cons.mp hl
    rw [List.replace_cons]
    by_cases hay : a = y
    · subst hay
      rw [beq_self_eq_true, List.mem_cons, List.mem_cons]
      constructor
      · rintro (rfl | hx)
        · exact .inl rfl
        · exact .inr ⟨.inr hx, fun hxa => hy (hxa ▸ hx)⟩
      · rintro (rfl | ⟨rfl | hx, hne⟩)
        · exact .inl rfl
        · exact absurd rfl hne
        · exact .inr hx
    · rw [beq_false_of_ne hay, List.mem_cons, List.mem_cons, ih hl (List.mem_of_ne_of_mem hay ha)]
      constructor
      · rintro (rfl | hx | ⟨hx, hne⟩)
        · exact .inr ⟨.inl rfl, Ne.symm hay⟩
        · exact .inl hx
        · exact .inr ⟨.inr hx, hne⟩
      · rintro (hx | ⟨rfl | hx, hne⟩)
        · exact .inr (.inl hx)
        · exact .inl rfl
        · exact .inr (.inr ⟨hx, hne⟩)

theorem nodup_replace {l : List α} {a b : α} (hl : l.Nodup) (hb : b ∉ l) : (l.replace a b).Nodup := by
  induction l with
  | nil => exact List.nodup_nil
  | cons y l ih =>
    obtain ⟨hy, hl⟩ := List.nodup_cons.mp hl
    have hby : b ≠ y := fun hby => hb (hby ▸ List.mem_cons_self)
    have hbl : b ∉ l := fun hbl => hb (List.mem_cons_of_mem y hbl)
    rw [List.replace_cons]
    by_cases hay : a = y
    · rw [hay, beq_self_eq_true]
      exact List.nodup_cons.mpr ⟨hbl, hl⟩
    · rw [beq_false_of_ne hay]
      refine List.nodup_cons.mpr ⟨fun hmem => ?_, ih hl hbl⟩
      rcases mem_of_mem_replace hmem with rfl | hmem
      · exact hby rfl
      · exact hy hmem

end Replace

section Positions

variable {α : Type} [BEq α] [LawfulBEq α]

theorem findIdx?_beq_of_nodup {l : List α} (hl : l.Nodup) {i : Nat} {a : α} (hi : l[i]? = some a) :
    l.findIdx? (· == a) = some i := by
  obtain ⟨hlt, hget⟩ := List.getElem?_eq_some_iff.mp hi
  refine List.findIdx?_eq_some_iff_getElem.mpr ⟨hlt, by simp [hget], fun j hji hj => ?_⟩
  have hsame : l[j] = l[i] := by rw [hget]; exact beq_iff_eq.mp hj
  exact absurd ((hl.getElem_inj_iff).mp hsame) (Nat.ne_of_lt hji)

theorem findIdx?_beq_eq_none {l : List α} {a : α} (ha : a ∉ l) : l.findIdx? (· == a) = none :=
  List.findIdx?_eq_none_iff.mpr fun _ hx => beq_false_of_ne fun hxa => ha (hxa ▸ hx)

theorem findIdx?_beq_drop_of_nodup {l : List α} (hl : l.Nodup) {i : Nat} {a : α} (hi : l[i]? = some a)
    (s : Nat) : (l.drop s).findIdx? (· == a) = if s ≤ i then some (i - s) else none := by
  split
  · rename_i hsi
    exact findIdx?_beq_of_nodup (hl.sublist (List.drop_sublist s l))
      (by rw [List.getElem?_drop, Nat.add_sub_cancel' hsi, hi])
  · rename_i hsi
    refine findIdx?_beq_eq_none fun hmem => ?_
    obtain ⟨j, hj, hget⟩ := List.getElem_of_mem hmem
    have hat : l[s + j]? = some a := by rw [← List.getElem?_drop, List.getElem?_eq_getElem hj, hget]
    obtain ⟨hlt, hgetI⟩ := List.getElem?_eq_some_iff.mp hi
    obtain ⟨hlt', hgetJ⟩ := List.getElem?_eq_some_iff.mp hat
    have hsame : s + j = i := (hl.getElem_inj_iff).mp (hgetJ.trans hgetI.symm)
    omega

end Positions

end Crygcoin
