import CelTyping.Proofs.Unification.Growth
import Mathlib.Data.Set.Card

/-!
# Unification ends

`unifyWithin` gives no answer when the bound on its depth is too small.  Here is a bound that is
large enough, whatever the types are made of.

The obvious measures do not go down.  A parameter that is bound already may be bound anew, so what
a type resolves to changes while its parameters are compared: it gets smaller where something
becomes dynamic, and larger where a parameter that stood for `error` is made to stand for a bound
one.  What a successful comparison of two parameters leaves need not even be more general than what
was bound while it was under way, since the binding that a parameter had before is put back after.

What goes down is the *set of types in sight*.  From two types, steps down lead to parameters of
types and to what type parameters are bound to (`Down`), and unification never binds anything but
what it has in sight to something in sight.  So when the parameters of two types `a` and `b` are
entered, after whatever was bound meanwhile, what the parameters `c` of `a` and `e` of `b` have in
sight, `a` and `b` had in sight.  And it is less: if `c` and `e` still had both `a` and `b` in
sight, then, as `c` cannot have `a` above it in sight, nor `e` the type `b`, steps down would lead
from `a` to `c` to `b` to `e` and back to `a`.  No binding that unification makes closes such a
loop.

Following a binding leaves the set as it is at worst, and the mapping is then the same, so that the
types under one of the two sides become fewer.  The measure is lexicographic in

* the number of types in sight,
* the number of types under either side,

and both are bounded by the number of nodes of the two types and of all bound types.
-/

namespace CelTyping

open Relation

namespace Ty

/-- The type parameters in a type carry no parameters themselves. -/
def PlainParams (t : Ty) : Prop := ∀ u ∈ t.nodes, u.isParam = true → u.params = []

instance (t : Ty) : Decidable t.PlainParams :=
  inferInstanceAs (Decidable (∀ u ∈ t.nodes, u.isParam = true → u.params = []))

theorem WellFormed.plainParams {t : Ty} (h : t.WellFormed) : t.PlainParams :=
  fun _ hu hpar => (h.of_mem_nodes hu).params_nil_of_isParam hpar

/-- Two type parameters without parameters are exactly equal when their keys are. -/
theorem isExact_of_key_eq {a b : Ty} (hpa : a.isParam = true) (hpb : b.isParam = true)
    (hna : a.params = []) (hnb : b.params = []) (h : a.key = b.key) : a.isExact b = true := by
  rw [key_of_params_nil hna, key_of_params_nil hnb] at h
  rw [isExact_iff, shape_eq, shape_eq, hna, hnb, isParam_iff.mp hpa, isParam_iff.mp hpb, h]

theorem sizes_append (as bs : List Ty) : sizes (as ++ bs) = sizes as + sizes bs := by
  induction as with
  | nil => rw [List.nil_append, sizes, Nat.zero_add]
  | cons a rest ih => rw [List.cons_append, sizes, sizes, ih, Nat.add_assoc]

end Ty

namespace Mapping

variable {m m' : Mapping} {U : Ty → Prop}

/-! ## No loops -/

/-- No steps down lead from a type back to it. -/
def Loopless (m : Mapping) : Prop := ∀ t, ¬ TransGen m.Down t t

/-- Steps down either only enter parameters, or they follow the binding of a type parameter that
leads to everything that occurs below. -/
theorem mentions_of_transGen {t u : Ty} (h : TransGen m.Down t u) :
    (u.size < t.size ∧ ∀ q, u.Mentions q → t.Mentions q) ∨
      ∃ p, t.Mentions p ∧ ∀ q, u.Mentions q → TransGen m.Leads p q := by
  induction h with
  | @single u hdown =>
    cases hdown with
    | param _ hc =>
      exact Or.inl ⟨Ty.size_lt_of_mem_params hc, fun q hq => hq.of_mem_params hc⟩
    | bound hpar hb =>
      exact Or.inr ⟨t.key, Ty.mentions_key hpar, fun q hq => .single ⟨u, hb, hq⟩⟩
  | @tail v u _ hdown ih =>
    cases hdown with
    | param _ hc =>
      have hmentions : ∀ q, u.Mentions q → v.Mentions q := fun q hq => hq.of_mem_params hc
      rcases ih with ⟨hsize, hsub⟩ | ⟨p, hp, hleads⟩
      · exact Or.inl ⟨Nat.lt_trans (Ty.size_lt_of_mem_params hc) hsize,
          fun q hq => hsub q (hmentions q hq)⟩
      · exact Or.inr ⟨p, hp, fun q hq => hleads q (hmentions q hq)⟩
    | bound hpar hb =>
      have hnext : ∀ q, u.Mentions q → m.Leads v.key q := fun q hq => ⟨u, hb, hq⟩
      rcases ih with ⟨-, hsub⟩ | ⟨p, hp, hleads⟩
      · exact Or.inr ⟨v.key, hsub _ (Ty.mentions_key hpar), fun q hq => .single (hnext q hq)⟩
      · exact Or.inr ⟨p, hp, fun q hq => (hleads _ (Ty.mentions_key hpar)).tail (hnext q hq)⟩

/-- A mapping in which no parameter leads back to itself has no loops. -/
theorem Acyclic.loopless (hm : m.Acyclic) : m.Loopless := by
  intro t hloop
  rcases mentions_of_transGen hloop with ⟨hsize, -⟩ | ⟨p, hp, hleads⟩
  · exact Nat.lt_irrefl _ hsize
  · exact hm p (hleads p hp)

/-- Steps down from a type under which the parameter is not found do not see that it is bound. -/
theorem reflTransGen_down_of_add {p t u v : Ty}
    (hp : ∀ w, ReflTransGen m.Down u w → w.isParam = true → w.key ≠ p.key)
    (h : ReflTransGen (m.add p t).Down u v) : ReflTransGen m.Down u v := by
  induction h with
  | refl => exact .refl
  | tail _ hdown ih =>
    rcases hdown.of_add with ⟨hpar, hkey, -⟩ | hold
    · exact absurd hkey (hp _ ih hpar)
    · exact ih.tail hold

/-- Steps down after a parameter was bound avoid the new binding or go through it. -/
theorem transGen_down_add_split {p t u v : Ty} (h : TransGen (m.add p t).Down u v) :
    TransGen m.Down u v ∨ ∃ w, w.isParam = true ∧ w.key = p.key ∧
      ReflTransGen (m.add p t).Down u w ∧ ReflTransGen (m.add p t).Down t v := by
  induction h with
  | single hdown =>
    rcases hdown.of_add with ⟨hpar, hkey, rfl⟩ | hold
    · exact Or.inr ⟨u, hpar, hkey, .refl, .refl⟩
    · exact Or.inl (.single hold)
  | @tail v x hbefore hdown ih =>
    rcases hdown.of_add with ⟨hpar, hkey, rfl⟩ | hold
    · exact Or.inr ⟨v, hpar, hkey, hbefore.to_reflTransGen, .refl⟩
    · rcases ih with ih | ⟨w, hpar, hkey, huw, htv⟩
      · exact Or.inl (ih.tail hold)
      · exact Or.inr ⟨w, hpar, hkey, huw, htv.tail hdown⟩

/-- **Binding a parameter to a type under which it is not found closes no loop.** -/
theorem Loopless.add (hm : m.Loopless) {p t : Ty}
    (h : ∀ w, ReflTransGen m.Down t w → w.isParam = true → w.key ≠ p.key) :
    (m.add p t).Loopless := by
  intro u hloop
  rcases transGen_down_add_split hloop with hold | ⟨w, hpar, hkey, huw, htu⟩
  · exact hm u hold
  · exact h w (reflTransGen_down_of_add h (htu.trans huw)) hpar hkey

/-- What is absent from a type is absent one step down. -/
theorem isAbsentWithin_down {p t c : Ty} {d : Nat} (hdown : m.Down t c)
    (h : m.isAbsentWithin p (d + 1) t = some true) : m.isAbsentWithin p d c = some true := by
  rw [isAbsentWithin_succ] at h
  split at h
  · exact absurd h (by simp)
  · cases hdown with
    | param hkind hc =>
      rw [Ty.isParam_of_isParameterized hkind, if_neg Bool.false_ne_true, if_pos hkind] at h
      exact allM_eq_some_true h c hc
    | bound hpar hb =>
      rw [if_pos hpar, hb] at h
      exact h

/-- What is absent from a type is found nowhere under it. -/
theorem isExact_eq_false_of_isAbsentWithin {p t u : Ty} {d : Nat}
    (h : m.isAbsentWithin p d t = some true) (hu : ReflTransGen m.Down t u) :
    p.isExact u = false := by
  induction hu using ReflTransGen.head_induction_on generalizing d with
  | refl =>
    cases d with
    | zero => exact absurd h (by simp [isAbsentWithin])
    | succ d =>
      rw [isAbsentWithin_succ] at h
      split at h
      · exact absurd h (by simp)
      · next hne => exact Bool.eq_false_iff.mpr hne
  | head hdown _ ih =>
    cases d with
    | zero => exact absurd h (by simp [isAbsentWithin])
    | succ d => exact ih (isAbsentWithin_down hdown h)

theorem Closed.of_reflTransGen (hm : m.Closed U) {t u : Ty} (ht : U t)
    (h : ReflTransGen m.Down t u) : U u := by
  induction h with
  | refl => exact ht
  | tail _ hdown ih => exact hm _ _ ih hdown

/-- The type parameters of a family are told apart by their keys. -/
def ToldApart (U : Ty → Prop) : Prop :=
  ∀ u v, U u → U v → u.isParam = true → v.isParam = true → u.key = v.key → u.isExact v = true

/-- **Growing closes no loop**: the parameter that is bound is not found under what it is bound
to, neither itself nor another of its key. -/
theorem Grows.loopless (h : Grows U m m') (hU : ToldApart U) (hclosed : m.Closed U)
    (hm : m.Loopless) : m'.Loopless := by
  induction h with
  | refl => exact hm
  | @bind m₁ p t hgrows hp hpar ht habs ih =>
    refine ih.add fun w hw hwpar hkey => ?_
    have hUw : U w := (hgrows.closed hclosed).of_reflTransGen ht hw
    have hexact := hU p w hp hUw hpar hwpar hkey.symm
    rw [isExact_eq_false_of_isAbsentWithin habs hw] at hexact
    exact Bool.false_ne_true hexact

/-! ## Types in sight -/

/-- The types that steps down lead to from a type. -/
def under (m : Mapping) (t : Ty) : Set Ty := {u | ReflTransGen m.Down t u}

/-- The types that steps down lead to from one of two types. -/
def inSight (m : Mapping) (a b : Ty) : Set Ty := m.under a ∪ m.under b

theorem mem_under_self (m : Mapping) (t : Ty) : t ∈ m.under t := ReflTransGen.refl

theorem under_subset_of_down {t c : Ty} (h : m.Down t c) : m.under c ⊆ m.under t :=
  fun _ hu => ReflTransGen.head h hu

/-- One step down the type above is not found any more. -/
theorem Loopless.notMem_under (hm : m.Loopless) {t c : Ty} (h : m.Down t c) : t ∉ m.under c :=
  fun ht => hm t (TransGen.head' h ht)

theorem closed_inSight (m : Mapping) (a b : Ty) : m.Closed (· ∈ m.inSight a b) := by
  rintro t c (ht | ht) hdown
  · exact Or.inl (ReflTransGen.tail ht hdown)
  · exact Or.inr (ReflTransGen.tail ht hdown)

theorem inSight_subset (hm : m.Closed U) {a b : Ty} (ha : U a) (hb : U b) :
    m.inSight a b ⊆ {u | U u} := by
  rintro u (hu | hu)
  · exact hm.of_reflTransGen ha hu
  · exact hm.of_reflTransGen hb hu

theorem inSight_comm (m : Mapping) (a b : Ty) : m.inSight a b = m.inSight b a := Set.union_comm _ _

/-! ## Counting -/

/-- The nodes of some types and of all bound types. -/
def stock (m : Mapping) (ts : List Ty) : List Ty :=
  Ty.nodesOfAll ts ++ Ty.nodesOfAll m.bindings.values

theorem length_stock (m : Mapping) (ts : List Ty) :
    (m.stock ts).length = m.weight + Ty.sizes ts := by
  rw [stock, List.length_append, Ty.length_nodesOfAll, Ty.length_nodesOfAll, Nat.add_comm]
  rfl

theorem mem_stock_of_mem {ts : List Ty} {t : Ty} (ht : t ∈ ts) : t ∈ m.stock ts :=
  List.mem_append_left _ (Ty.mem_nodesOfAll_iff.mpr ⟨t, ht, Ty.mem_nodes_self t⟩)

theorem closed_stock (m : Mapping) (ts : List Ty) : m.Closed (· ∈ m.stock ts) := by
  have hnodes : ∀ {us : List Ty} {t c : Ty}, t ∈ Ty.nodesOfAll us → c ∈ t.params →
      c ∈ Ty.nodesOfAll us := by
    intro us t c ht hc
    obtain ⟨u, hu, htu⟩ := Ty.mem_nodesOfAll_iff.mp ht
    exact Ty.mem_nodesOfAll_iff.mpr
      ⟨u, hu, Ty.mem_nodes_trans htu (Ty.mem_nodes_of_mem_params hc (Ty.mem_nodes_self c))⟩
  intro t c ht hdown
  cases hdown with
  | param _ hc =>
    rcases List.mem_append.mp ht with ht | ht
    · exact List.mem_append_left _ (hnodes ht hc)
    · exact List.mem_append_right _ (hnodes ht hc)
  | bound _ hb =>
    have hvalue : c ∈ m.bindings.values :=
      List.mem_map.mpr ⟨_, Table.mem_entries_of_find? hb, rfl⟩
    exact List.mem_append_right _ (Ty.mem_nodesOfAll_iff.mpr ⟨c, hvalue, Ty.mem_nodes_self c⟩)

theorem ncard_le_length {s : Set Ty} {l : List Ty} (h : s ⊆ {u | u ∈ l}) : s.ncard ≤ l.length := by
  induction l generalizing s with
  | nil =>
    have hempty : s = ∅ := Set.eq_empty_of_forall_notMem fun u hu => List.not_mem_nil (h hu)
    rw [hempty, Set.ncard_empty]
    exact Nat.zero_le _
  | cons x rest ih =>
    have hrest : (s \ {x}).ncard ≤ rest.length :=
      ih fun u hu => List.mem_of_ne_of_mem hu.2 (h hu.1)
    have hstep := Set.pred_ncard_le_ncard_sdiff_singleton s x
    rw [List.length_cons]
    omega

/-- Types that steps down lead to are finitely many. -/
theorem finite_under (m : Mapping) (t : Ty) : (m.under t).Finite := by
  refine (List.finite_toSet (m.stock [t])).subset fun u hu => ?_
  exact (m.closed_stock [t]).of_reflTransGen (mem_stock_of_mem List.mem_cons_self) hu

theorem finite_inSight (m : Mapping) (a b : Ty) : (m.inSight a b).Finite :=
  (m.finite_under a).union (m.finite_under b)

/-- **Entering the parameters of two types, less is in sight**, even after the mapping has grown:
otherwise steps down would lead from one of the types to the other and back. -/
theorem ncard_inSight_params_lt {a b c e : Ty} (hgrows : Grows (· ∈ m.inSight a b) m m')
    (hm' : m'.Loopless) (hka : a.kind.isParameterized = true) (hkb : b.kind.isParameterized = true)
    (hc : c ∈ a.params) (he : e ∈ b.params) :
    (m'.inSight c e).ncard < (m.inSight a b).ncard := by
  have hclosed := hgrows.closed (m.closed_inSight a b)
  have ha : a ∈ m.inSight a b := Or.inl (m.mem_under_self a)
  have hb : b ∈ m.inSight a b := Or.inr (m.mem_under_self b)
  have hac : m'.Down a c := .param hka hc
  have hbe : m'.Down b e := .param hkb he
  have hsub := inSight_subset hclosed (hclosed a c ha hac) (hclosed b e hb hbe)
  refine Set.ncard_lt_ncard ⟨hsub, fun hall => ?_⟩ (m.finite_inSight a b)
  have hae : a ∈ m'.under e := (hall ha).resolve_left (hm'.notMem_under hac)
  have hbc : b ∈ m'.under c := (hall hb).resolve_right (hm'.notMem_under hbe)
  exact hm' a (TransGen.head' hac (hbc.trans (ReflTransGen.head hbe hae)))

/-- One step down there are fewer types under a type. -/
theorem Loopless.ncard_under_lt (hm : m.Loopless) {t c : Ty} (h : m.Down t c) :
    (m.under c).ncard < (m.under t).ncard :=
  Set.ncard_lt_ncard
    ⟨under_subset_of_down h, fun hsub => hm.notMem_under h (hsub (m.mem_under_self t))⟩
    (m.finite_under t)

/-- The depth that `isAbsent?` needs is the number of types under a type. -/
theorem Loopless.isSome_isAbsentWithin (hm : m.Loopless) (p : Ty) {d : Nat} {t : Ty}
    (hd : (m.under t).ncard ≤ d) : (m.isAbsentWithin p d t).isSome := by
  induction d generalizing t with
  | zero =>
    have hpos := (Set.ncard_pos (m.finite_under t)).mpr ⟨t, m.mem_under_self t⟩
    omega
  | succ d ih =>
    have hnext : ∀ {c : Ty}, m.Down t c → (m.isAbsentWithin p d c).isSome := fun hdown =>
      ih (Nat.le_of_lt_succ (Nat.lt_of_lt_of_le (hm.ncard_under_lt hdown) hd))
    rw [isAbsentWithin_succ]
    split
    · rfl
    split
    · next hpar =>
      cases hb : m.find? t with
      | none => rfl
      | some b => exact hnext (.bound hpar hb)
    split
    · next hkind => exact isSome_allM fun c hc => hnext (.param hkind hc)
    · rfl

/-- Without loops the question whether a type occurs in another has an answer. -/
theorem Loopless.isSome_isAbsent? (hm : m.Loopless) (p t : Ty) : (m.isAbsent? p t).isSome := by
  refine hm.isSome_isAbsentWithin p ?_
  have hle : (m.under t).ncard ≤ (m.stock [t]).length := ncard_le_length fun u hu =>
    (m.closed_stock [t]).of_reflTransGen (mem_stock_of_mem List.mem_cons_self) hu
  rw [length_stock, Ty.sizes, Ty.sizes] at hle
  unfold depthBound
  omega

/-! ## The measure -/

/-- The depth that is enough to unify two types, given a bound on how many types there are. -/
noncomputable def depthNeeded (count : Nat) (m : Mapping) (a b : Ty) : Nat :=
  (m.inSight a b).ncard * (2 * count + 1) + ((m.under a).ncard + (m.under b).ncard)

theorem depthNeeded_comm (count : Nat) (m : Mapping) (a b : Ty) :
    depthNeeded count m a b = depthNeeded count m b a := by
  unfold depthNeeded
  rw [inSight_comm, Nat.add_comm (m.under a).ncard]

/-- Following a binding needs less depth. -/
theorem depthNeeded_bound_lt (hm : m.Loopless) (count : Nat) {a p c : Ty} (hpar : p.isParam = true)
    (hc : m.find? p = some c) : depthNeeded count m a c < depthNeeded count m a p := by
  have hdown : m.Down p c := .bound hpar hc
  have hsub : m.inSight a c ⊆ m.inSight a p :=
    Set.union_subset_union_right _ (under_subset_of_down hdown)
  have hsight := Nat.mul_le_mul_right (2 * count + 1)
    (Set.ncard_le_ncard hsub (m.finite_inSight a p))
  have hunder := hm.ncard_under_lt hdown
  unfold depthNeeded
  omega

/-- Entering the parameters of two types needs less depth, even after the mapping has grown. -/
theorem depthNeeded_params_lt {count : Nat} {a b c e : Ty}
    (hgrows : Grows (· ∈ m.inSight a b) m m') (hm' : m'.Loopless)
    (hka : a.kind.isParameterized = true) (hkb : b.kind.isParameterized = true)
    (hc : c ∈ a.params) (he : e ∈ b.params) (hcc : (m'.under c).ncard ≤ count)
    (hce : (m'.under e).ncard ≤ count) : depthNeeded count m' c e < depthNeeded count m a b := by
  have hlt := ncard_inSight_params_lt hgrows hm' hka hkb hc he
  have hsight := Nat.mul_le_mul_right (2 * count + 1) (Nat.succ_le_of_lt hlt)
  rw [Nat.succ_mul] at hsight
  unfold depthNeeded
  omega

theorem depthNeeded_le {count : Nat} {a b : Ty} (hsight : (m.inSight a b).ncard ≤ count)
    (ha : (m.under a).ncard ≤ count) (hb : (m.under b).ncard ≤ count) :
    depthNeeded count m a b ≤ (2 * count + 1) ^ 5 := by
  have hmul := Nat.mul_le_mul_right (2 * count + 1) hsight
  have hpow : (2 * count + 1) ^ 2 ≤ (2 * count + 1) ^ 5 :=
    Nat.pow_le_pow_right (Nat.succ_pos _) (by decide)
  have hsquare : (2 * count + 1) ^ 2 = 2 * (count * (2 * count + 1)) + (2 * count + 1) := by
    rw [Nat.pow_two, Nat.add_mul, Nat.one_mul, Nat.mul_assoc]
  unfold depthNeeded
  omega

/-! ## Answers -/

section

variable {unify : Mapping → Ty → Ty → Option (Bool × Mapping)} {R : Mapping → Prop}
  (hR : ∀ m, R m → ∀ p t, (m.isAbsent? p t).isSome)

include hR

theorem isSome_bind {t p : Ty} (hm : R m)
    (hnext : ∀ c, m.find? p = some c → ∃ r, unify m t c = some r ∧ R r.2) :
    (m.bind unify t p).isSome := by
  unfold bind
  split
  · rfl
  cases hb : m.find? p with
  | none =>
    obtain ⟨free, hfree⟩ := Option.isSome_iff_exists.mp (hR m hm p t)
    simp [hfree]
  | some c =>
    obtain ⟨⟨unified, m₁⟩, hu, hm₁⟩ := hnext c hb
    obtain ⟨free, hfree⟩ := Option.isSome_iff_exists.mp (hR m₁ hm₁ p (t.mostGeneral c))
    simp only [hu, Option.bind_eq_bind, Option.bind_some]
    split
    · rfl
    · cases unified <;> simp [hfree]

omit hR in
theorem isSome_unifyPairs {as : List Ty} : ∀ {m : Mapping} {bs : List Ty}, R m →
    (∀ m', R m' → ∀ a ∈ as, ∀ b ∈ bs, ∃ r, unify m' a b = some r ∧ R r.2) →
    (unifyPairs unify m as bs).isSome := by
  induction as with
  | nil =>
    intro m bs _ _
    rw [unifyPairs]
    · rfl
    · simp
  | cons a as ih =>
    intro m bs hm hnext
    cases bs with
    | nil =>
      rw [unifyPairs]
      · rfl
      · simp
    | cons b bs =>
      obtain ⟨⟨unified, m₁⟩, hu, hm₁⟩ := hnext m hm a List.mem_cons_self b List.mem_cons_self
      rw [unifyPairs, hu]
      cases unified with
      | false => rfl
      | true =>
        exact ih hm₁ fun m' hm' x hx y hy =>
          hnext m' hm' x (List.mem_cons_of_mem a hx) y (List.mem_cons_of_mem b hy)

omit hR in
theorem isSome_unifyLists {as bs : List Ty} (hm : R m)
    (hnext : ∀ m', R m' → ∀ a ∈ as, ∀ b ∈ bs, ∃ r, unify m' a b = some r ∧ R r.2) :
    (m.unifyLists unify as bs).isSome := by
  unfold unifyLists
  split
  · exact isSome_unifyPairs hm hnext
  · rfl

omit hR in
theorem isSome_unifyConcrete {a b : Ty} (hlists : a.kind.isParameterized = true →
    b.kind.isParameterized = true → (m.unifyLists unify a.params b.params).isSome) :
    (m.unifyConcrete unify a b).isSome := by
  have hsome : a.kind.isParameterized = true → (if a.kind = b.kind ∧ a.name = b.name then
      m.unifyLists unify a.params b.params else some (false, m)).isSome := by
    intro hkind
    split
    · next hroot => exact hlists hkind (hroot.1 ▸ hkind)
    · rfl
  unfold unifyConcrete
  split
  · rfl
  split
  · rfl
  split
  · rfl
  split
  case h_11 hkind => exact hsome (by rw [hkind]; rfl)
  case h_12 hkind => exact hsome (by rw [hkind]; rfl)
  case h_13 hkind => exact hsome (by rw [hkind]; rfl)
  all_goals rfl

/-- **A unification answers if those it starts do**: it follows the binding of a parameter, or it
enters the parameters of both types with a mapping that may have grown. -/
theorem isSome_unifyWithin_succ {d : Nat} {a b : Ty} (hm : R m)
    (hright : b.isParam = true → ∀ c, m.find? b = some c →
      ∃ r, unifyWithin d m a c = some r ∧ R r.2)
    (hleft : a.isParam = true → ∀ c, m.find? a = some c →
      ∃ r, unifyWithin d m b c = some r ∧ R r.2)
    (hparams : a.kind.isParameterized = true → b.kind.isParameterized = true → ∀ m', R m' →
      ∀ c ∈ a.params, ∀ e ∈ b.params, ∃ r, unifyWithin d m' c e = some r ∧ R r.2) :
    (unifyWithin (d + 1) m a b).isSome := by
  have hunifyLeft : (m.unifyLeft (unifyWithin d) a b).isSome := by
    unfold unifyLeft
    cases hapar : a.isParam with
    | true =>
      obtain ⟨r, hr⟩ := Option.isSome_iff_exists.mp (isSome_bind hR hm (hleft hapar))
      simp [hr]
    | false =>
      exact isSome_unifyConcrete fun hka hkb => isSome_unifyLists hm (hparams hka hkb)
  rw [unifyWithin]
  split
  · rfl
  split
  · next hbpar =>
    obtain ⟨⟨o, m₁⟩, ho⟩ := Option.isSome_iff_exists.mp (isSome_bind hR hm (hright hbpar))
    rw [ho]
    cases o with
    | agrees => rfl
    | clashes => rfl
    | occurs =>
      -- an occurrence leaves the mapping as it is, and the left side is tried
      cases bind_step ho
      exact hunifyLeft
  · exact hunifyLeft

end

theorem Grows.mono {V : Ty → Prop} (h : Grows U m m') (hUV : ∀ t, U t → V t) : Grows V m m' := by
  induction h with
  | refl => exact .refl
  | bind _ hp hpar ht habs ih => exact .bind ih (hUV _ hp) hpar (hUV _ ht) habs

section

variable {count : Nat} (hapart : ToldApart U)
  (hcount : ∀ {s : Set Ty}, s ⊆ {u | U u} → s.ncard ≤ count)

include hapart hcount

/-- **Unification answers** once the depth is what the measure asks for, in a family with finitely
many types. -/
theorem isSome_unifyWithin {d : Nat} {m : Mapping} {a b : Ty} (hm : m.Loopless) (hU : m.Closed U)
    (ha : U a) (hb : U b) (hd : depthNeeded count m a b ≤ d) : (unifyWithin d m a b).isSome := by
  induction d generalizing m a b with
  | zero =>
    have hpos := (Set.ncard_pos (m.finite_under a)).mpr ⟨a, m.mem_under_self a⟩
    unfold depthNeeded at hd
    omega
  | succ d ih =>
    have hsub : ∀ t, t ∈ m.inSight a b → U t := inSight_subset hU ha hb
    have hloopless : ∀ m', Grows (· ∈ m.inSight a b) m m' → m'.Loopless := fun m' hgrows =>
      hgrows.loopless (fun u v hu hv => hapart u v (hsub u hu) (hsub v hv))
        (m.closed_inSight a b) hm
    -- what is started with less depth and with types in sight answers, and the mapping grows
    have hans : ∀ m' c e, Grows (· ∈ m.inSight a b) m m' → c ∈ m.inSight a b →
        e ∈ m.inSight a b → depthNeeded count m' c e < depthNeeded count m a b →
        ∃ r, unifyWithin d m' c e = some r ∧ Grows (· ∈ m.inSight a b) m r.2 := by
      intro m' c e hgrows hc he hlt
      obtain ⟨r, hr⟩ := Option.isSome_iff_exists.mp (ih (hloopless m' hgrows)
        ((hgrows.mono hsub).closed hU) (hsub c hc) (hsub e he) (by omega))
      exact ⟨r, hr, hgrows.trans (unifyWithin_confined _ d m' c e r.1 r.2
        (hgrows.closed (m.closed_inSight a b)) hc he hr)⟩
    have hasight : a ∈ m.inSight a b := Or.inl (m.mem_under_self a)
    have hbsight : b ∈ m.inSight a b := Or.inr (m.mem_under_self b)
    refine isSome_unifyWithin_succ (R := Grows (· ∈ m.inSight a b) m)
      (fun m' hgrows => (hloopless m' hgrows).isSome_isAbsent?) .refl
      (fun hpar c hc => ?_) (fun hpar c hc => ?_) (fun hka hkb m' hgrows c hc e he => ?_)
    · exact hans m a c .refl hasight (m.closed_inSight a b b c hbsight (.bound hpar hc))
        (depthNeeded_bound_lt hm count hpar hc)
    · refine hans m b c .refl hbsight (m.closed_inSight a b a c hasight (.bound hpar hc)) ?_
      rw [depthNeeded_comm count m a b]
      exact depthNeeded_bound_lt hm count hpar hc
    · have hU' := (hgrows.mono hsub).closed hU
      have hcsight := m.closed_inSight a b a c hasight (.param hka hc)
      have hesight := m.closed_inSight a b b e hbsight (.param hkb he)
      have hle : ∀ {t : Ty}, t ∈ m.inSight a b → (m'.under t).ncard ≤ count := fun ht =>
        hcount fun u hu => hU'.of_reflTransGen (hsub _ ht) hu
      exact hans m' c e hgrows hcsight hesight (depthNeeded_params_lt hgrows (hloopless m' hgrows)
        hka hkb hc he (hle hcsight) (hle hesight))

end

/-! ## The bound does not matter -/

/-- Wherever one way to unify answers, another gives the same answer. -/
def AnswersAlike (f g : Mapping → Ty → Ty → Option (Bool × Mapping)) : Prop :=
  ∀ m a b r, f m a b = some r → g m a b = some r

section

variable {f g : Mapping → Ty → Ty → Option (Bool × Mapping)} (hfg : AnswersAlike f g)

include hfg

theorem bind_mono {t p : Ty} {r : Binding × Mapping} (h : m.bind f t p = some r) :
    m.bind g t p = some r := by
  unfold bind at h ⊢
  split
  · next hexact =>
    rw [if_pos hexact] at h
    exact h
  next hexact =>
  rw [if_neg hexact] at h
  cases hb : m.find? p with
  | none =>
    rw [hb] at h
    exact h
  | some c =>
    rw [hb] at h
    dsimp only at h ⊢
    split
    · next hknown =>
      rw [if_pos hknown] at h
      exact h
    · next hknown =>
      rw [if_neg hknown] at h
      obtain ⟨x, hx, hrest⟩ := Option.bind_eq_some_iff.mp h
      rw [hfg _ _ _ _ hx]
      exact hrest

theorem unifyPairs_mono {as : List Ty} : ∀ {m : Mapping} {bs : List Ty} {r : Bool × Mapping},
    unifyPairs f m as bs = some r → unifyPairs g m as bs = some r := by
  induction as with
  | nil =>
    intro m bs r h
    rw [unifyPairs] at h ⊢
    · exact h
    all_goals simp
  | cons a as ih =>
    intro m bs r h
    cases bs with
    | nil =>
      rw [unifyPairs] at h ⊢
      · exact h
      all_goals simp
    | cons b bs =>
      rw [unifyPairs] at h ⊢
      obtain ⟨⟨unified, m₁⟩, hx, hrest⟩ := Option.bind_eq_some_iff.mp h
      rw [hfg _ _ _ _ hx]
      cases unified with
      | false => exact hrest
      | true => exact ih hrest

theorem unifyLists_mono {as bs : List Ty} {r : Bool × Mapping}
    (h : m.unifyLists f as bs = some r) : m.unifyLists g as bs = some r := by
  unfold unifyLists at h ⊢
  split
  · next hlength =>
    rw [if_pos hlength] at h
    exact unifyPairs_mono hfg h
  · next hlength =>
    rw [if_neg hlength] at h
    exact h

theorem unifyConcrete_mono {a b : Ty} {r : Bool × Mapping}
    (h : m.unifyConcrete f a b = some r) : m.unifyConcrete g a b = some r := by
  have hlists : (if a.kind = b.kind ∧ a.name = b.name then m.unifyLists f a.params b.params
      else some (false, m)) = some r →
      (if a.kind = b.kind ∧ a.name = b.name then m.unifyLists g a.params b.params
      else some (false, m)) = some r := by
    intro h
    split
    · next hroot =>
      rw [if_pos hroot] at h
      exact unifyLists_mono hfg h
    · next hroot =>
      rw [if_neg hroot] at h
      exact h
  unfold unifyConcrete at h ⊢
  split
  · next hwild =>
    rw [if_pos hwild] at h
    exact h
  next hwild =>
  rw [if_neg hwild] at h
  split
  · next hnull =>
    rw [if_pos hnull] at h
    exact h
  next hnull =>
  rw [if_neg hnull] at h
  split
  · next hnull' =>
    rw [if_pos hnull'] at h
    exact h
  next hnull' =>
  rw [if_neg hnull'] at h
  cases hkind : a.kind with
  | list | map | abstract =>
    rw [hkind] at h hlists
    exact hlists h
  | _ =>
    rw [hkind] at h
    exact h

theorem unifyLeft_mono {a b : Ty} {r : Bool × Mapping} (h : m.unifyLeft f a b = some r) :
    m.unifyLeft g a b = some r := by
  unfold unifyLeft at h ⊢
  split
  · next hpar =>
    rw [if_pos hpar] at h
    obtain ⟨x, hx, hrest⟩ := Option.bind_eq_some_iff.mp h
    rw [bind_mono hfg hx]
    exact hrest
  · next hpar =>
    rw [if_neg hpar] at h
    exact unifyConcrete_mono hfg h

end

/-- A greater depth gives the same answer. -/
theorem unifyWithin_mono {d d' : Nat} (h : d ≤ d') :
    AnswersAlike (unifyWithin d) (unifyWithin d') := by
  induction d generalizing d' with
  | zero =>
    intro m a b r hr
    exact absurd hr (by simp [unifyWithin])
  | succ d ih =>
    obtain ⟨d', rfl⟩ := Nat.exists_eq_add_one_of_ne_zero (Nat.ne_zero_of_lt h)
    have hih : AnswersAlike (unifyWithin d) (unifyWithin d') := ih (Nat.le_of_succ_le_succ h)
    intro m a b r hr
    rw [unifyWithin] at hr ⊢
    split
    · next hexact =>
      rw [if_pos hexact] at hr
      exact hr
    next hexact =>
    rw [if_neg hexact] at hr
    split
    · next hpar =>
      rw [if_pos hpar] at hr
      obtain ⟨⟨o, m₁⟩, hx, hrest⟩ := Option.bind_eq_some_iff.mp hr
      rw [bind_mono hih hx]
      cases o with
      | agrees => exact hrest
      | clashes => exact hrest
      | occurs => exact unifyLeft_mono hih hrest
    · next hpar =>
      rw [if_neg hpar] at hr
      exact unifyLeft_mono hih hr

/-! ## The bound is large enough -/

/-- The nodes of some types and of all bound types, as far as their type parameters carry no
parameters. -/
def Stocks (m : Mapping) (ts : List Ty) (u : Ty) : Prop := u ∈ m.stock ts ∧ u.PlainParams

theorem stocks_of_mem {ts : List Ty} {t : Ty} (ht : t ∈ ts) (hplain : t.PlainParams) :
    m.Stocks ts t :=
  ⟨mem_stock_of_mem ht, hplain⟩

theorem toldApart_stocks (m : Mapping) (ts : List Ty) : ToldApart (m.Stocks ts) :=
  fun u v hu hv hpu hpv => Ty.isExact_of_key_eq hpu hpv (hu.2 u (Ty.mem_nodes_self u) hpu)
    (hv.2 v (Ty.mem_nodes_self v) hpv)

section

variable {ts : List Ty} (hplain : ∀ p t, m.bindings.find? p = some t → t.PlainParams)

include hplain

theorem closed_stocks : m.Closed (m.Stocks ts) := by
  intro t c ht hdown
  refine ⟨m.closed_stock ts t c ht.1 hdown, ?_⟩
  cases hdown with
  | param _ hc => exact fun u hu => ht.2 u (Ty.mem_nodes_of_mem_params hc hu)
  | bound _ hb => exact hplain _ c hb

/-- One bound is enough for all pairs of types in stock, however the mapping has grown meanwhile,
and the mapping goes on growing. -/
theorem exists_unifyWithin_of_grows (hm : m.Acyclic) (hgrows : Grows (m.Stocks ts) m m')
    {a b : Ty} (ha : m.Stocks ts a) (hb : m.Stocks ts b) :
    ∃ r, unifyWithin (m.unifyBound (Ty.sizes ts)) m' a b = some r ∧
      Grows (m.Stocks ts) m r.2 := by
  have hapart := m.toldApart_stocks ts
  have hclosed : m'.Closed (m.Stocks ts) := hgrows.closed (closed_stocks hplain)
  have hcount : ∀ {s : Set Ty}, s ⊆ {u | m.Stocks ts u} → s.ncard ≤ m.weight + Ty.sizes ts := by
    intro s hs
    rw [← length_stock]
    exact ncard_le_length fun u hu => (hs hu).1
  have hunder : ∀ {t : Ty}, m.Stocks ts t → (m'.under t).ncard ≤ m.weight + Ty.sizes ts :=
    fun ht => hcount fun u hu => hclosed.of_reflTransGen ht hu
  have hd := depthNeeded_le (hcount (inSight_subset hclosed ha hb)) (hunder ha) (hunder hb)
  obtain ⟨r, hr⟩ := Option.isSome_iff_exists.mp (isSome_unifyWithin hapart hcount
    (hgrows.loopless hapart (closed_stocks hplain) hm.loopless) hclosed ha hb hd)
  exact ⟨r, hr, hgrows.trans (unifyWithin_confined _ _ m' a b r.1 r.2 hclosed ha hb hr)⟩

/-- Unification of lists answers within the bound that it puts on the depth. -/
theorem isSome_unifyAll? (hm : m.Acyclic) {as bs : List Ty} (has : ∀ a ∈ as, a.PlainParams)
    (hbs : ∀ b ∈ bs, b.PlainParams) : (m.unifyAll? as bs).isSome := by
  unfold unifyAll?
  rw [← Ty.sizes_append]
  exact isSome_unifyLists (R := Grows (m.Stocks (as ++ bs)) m) .refl fun m' hgrows a ha b hb =>
    exists_unifyWithin_of_grows hplain hm hgrows
      (stocks_of_mem (List.mem_append_left bs ha) (has a ha))
      (stocks_of_mem (List.mem_append_right as hb) (hbs b hb))

end

/-- **Unification ends.**  Let a mapping have no cycle, and let no type parameter in it carry
parameters.  For all types whose type parameters do not carry parameters either, as in well-formed
types, the recursion ends within the bound that `unify?` puts on its depth, and every bound from
there on gives the same answer.  Likewise for all lists of such types.

A type parameter that carries parameters is told from others by its parameters when it is looked
for, but not when its binding is, so a mapping with such a parameter can come to have a cycle
(`unify_keyed_endless`). -/
theorem unify_ends {m : Mapping} (hm : m.Acyclic)
    (hplain : ∀ p t, m.bindings.find? p = some t → t.PlainParams) :
    (∀ a b : Ty, a.PlainParams → b.PlainParams → ∃ r, m.unify? a b = some r ∧
      ∀ d, m.unifyBound (a.size + b.size) ≤ d → unifyWithin d m a b = some r) ∧
    ∀ as bs : List Ty, (∀ a ∈ as, a.PlainParams) → (∀ b ∈ bs, b.PlainParams) →
      ∃ r, m.unifyAll? as bs = some r ∧ ∀ d, m.unifyBound (Ty.sizes as + Ty.sizes bs) ≤ d →
        m.unifyLists (unifyWithin d) as bs = some r := by
  constructor
  · intro a b ha hb
    obtain ⟨r, hr, -⟩ := exists_unifyWithin_of_grows hplain hm .refl
      (stocks_of_mem (List.mem_cons_self (l := [b])) ha)
      (stocks_of_mem (List.mem_cons_of_mem a List.mem_cons_self) hb)
    exact ⟨r, hr, fun d hd => unifyWithin_mono hd m a b r hr⟩
  · intro as bs has hbs
    obtain ⟨r, hr⟩ := Option.isSome_iff_exists.mp (isSome_unifyAll? hplain hm has hbs)
    exact ⟨r, hr, fun d hd => unifyLists_mono (unifyWithin_mono hd) hr⟩

/-- With `A` bound to `list(B)`, comparing `map(B, A)` with `map(error, list(A))` binds `B` to
`error` and goes on to compare `A` with `list(A)`, which takes it through both bindings. -/
theorem unify_ends_rebound :
    ∃ r, (empty.add (.param "A") (.list (.param "B"))).unify?
        (.map (.param "B") (.param "A")) (.map .error (.list (.param "A"))) = some r ∧
      ∀ d, (empty.add (.param "A") (.list (.param "B"))).unifyBound 7 ≤ d →
        unifyWithin d (empty.add (.param "A") (.list (.param "B")))
          (.map (.param "B") (.param "A")) (.map .error (.list (.param "A"))) = some r := by
  have hm : (empty.add (.param "A") (.list (.param "B"))).Acyclic :=
    acyclic_empty.add (mt reaches_empty_iff.mp (by decide))
  refine (unify_ends hm fun p t ht => ?_).1 _ _ (by decide) (by decide)
  rw [bindings_find?_add] at ht
  split at ht
  · rw [← Option.some.inj ht]
    decide
  · exact absurd ht (by simp [empty])

/-! ## Type parameters with parameters -/

/-- A mapping that binds `X` to a type parameter `A` that carries a parameter, and so has the key of
the type parameter `A(int)`. -/
def keyed : Mapping := empty.add (.param "X") ((Ty.param "A").withParams [.int])

/-- The mapping once `A(int)` is bound to `X`. -/
def keyedBack : Mapping := keyed.add (.param "A(int)") (.param "X")

/-- An integer is compared with `X`, with what `X` is bound to, with `X` again and so on. -/
theorem unifyWithin_keyedBack (d : Nat) : unifyWithin d keyedBack .int (.param "X") = none ∧
    unifyWithin d keyedBack .int ((Ty.param "A").withParams [.int]) = none := by
  induction d with
  | zero => exact ⟨rfl, rfl⟩
  | succ d ih =>
    have hfind : keyedBack.find? (.param "X") = some ((Ty.param "A").withParams [.int]) := rfl
    have hfind' : keyedBack.find? ((Ty.param "A").withParams [.int]) = some (.param "X") := by
      rw [keyedBack, find?_add, if_pos (by decide +kernel)]
    constructor
    · rw [unifyWithin, if_neg (by decide), if_pos (by decide), bind, if_neg (by decide), hfind]
      dsimp only
      rw [if_neg (by decide), ih.2]
      rfl
    · rw [unifyWithin, if_neg (by decide), if_pos (by decide), bind, if_neg (by decide), hfind']
      dsimp only
      rw [if_neg (by decide), ih.1]
      rfl

/-- **Unification does not end where a bound type parameter carries parameters**: comparing
`map(X, X)` with `map(A(int), int)` binds the parameter `A(int)` to `X`, as `X` does not lead to it
by its parameters, and the mapping then has a cycle by keys. -/
theorem unify_keyed_endless :
    keyed.Acyclic ∧ (Ty.map (.param "X") (.param "X")).WellFormed ∧
    (Ty.map (.param "A(int)") .int).WellFormed ∧
    ∀ d, unifyWithin d keyed (.map (.param "X") (.param "X")) (.map (.param "A(int)") .int) =
      none := by
  refine ⟨acyclic_empty.add (mt reaches_empty_iff.mp (by decide +kernel)), by decide, by decide,
    fun d => ?_⟩
  rcases d with _ | _ | d
  · rfl
  · rfl
  have hfirst : unifyWithin (d + 1) keyed (.param "X") (.param "A(int)") =
      some (true, keyedBack) := by
    have hfind : keyed.find? (.param "A(int)") = none := rfl
    have hfree : keyed.isAbsent? (.param "A(int)") (.param "X") = some true := by decide +kernel
    rw [unifyWithin, if_neg (by decide), if_pos (by decide), bind, if_neg (by decide), hfind]
    dsimp only
    rw [hfree]
    rfl
  have hsecond : unifyWithin (d + 1) keyedBack (.param "X") .int = none := by
    have hfind : keyedBack.find? (.param "X") = some ((Ty.param "A").withParams [.int]) := rfl
    rw [unifyWithin, if_neg (by decide), if_neg (by decide), unifyLeft, if_pos (by decide), bind,
      if_neg (by decide), hfind]
    dsimp only
    rw [if_neg (by decide), (unifyWithin_keyedBack d).2]
    rfl
  have hpairs : unifyPairs (unifyWithin (d + 1)) keyed [.param "X", .param "X"]
      [.param "A(int)", .int] = none := by
    rw [unifyPairs, hfirst]
    show (unifyPairs (unifyWithin (d + 1)) keyedBack [.param "X"] [.int]) = none
    rw [unifyPairs, hsecond]
    rfl
  rw [unifyWithin, if_neg (by decide), if_neg (by decide), unifyLeft, if_neg (by decide)]
  exact hpairs

end Mapping
end CelTyping
