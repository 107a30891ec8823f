import CelTyping.Proofs.Ty.Nodes

/-!
# What types accept

A type without custom rules of acceptance decides node by node what it accepts, and what it looks at
in the type it is given is no more than the shape.  So two things matter when one type stands in
for another that is equivalent to it.

* On the side of what is given nothing changes: equivalent types are accepted alike, as the name of
  a type parameter is never compared (`Ordinary.accepts_congr`).
* On the side of what accepts it matters where `null` is an exception: the type that makes fewer
  exceptions accepts less (`Ordinary.accepts_mono`).

A type stripped of all its exceptions for `null` makes the fewest among the types that are
equivalent to it (`isEquivalent_strict`, `nullsWithin_strict`).
-/

namespace CelTyping

/-- Whether a rule of acceptance is one of the two that are not custom. -/
def Acceptance.isOrdinary : Acceptance → Bool
  | custom _ => false
  | _ => true

namespace Ty

/-- No node of a type has a custom rule of acceptance. -/
def Ordinary (t : Ty) : Prop := ∀ u ∈ t.nodes, u.acceptance.isOrdinary = true

instance (t : Ty) : Decidable t.Ordinary :=
  inferInstanceAs (Decidable (∀ u ∈ t.nodes, u.acceptance.isOrdinary = true))

theorem ordinary_iff {t : Ty} :
    t.Ordinary ↔ t.acceptance.isOrdinary = true ∧ ∀ c ∈ t.params, c.Ordinary :=
  forall_nodes_iff

theorem Ordinary.of_mem_params {t c : Ty} (h : t.Ordinary) (hc : c ∈ t.params) : c.Ordinary :=
  (ordinary_iff.mp h).2 c hc

/-- What a node without a custom rule accepts. -/
theorem accepts_eq {t : Ty} (h : t.acceptance.isOrdinary = true) (given : Ty) :
    t.accepts given = ((t.acceptance.takesNull && given.kind == .null) || t.kind.isDyn ||
      (t.kind == given.kind && t.name == given.name && acceptAll t.params given.params)) := by
  obtain ⟨kind, name, params, traits, acceptance⟩ := t
  cases acceptance with
  | structural => rw [accepts]; simp
  | nullable => rw [accepts]; simp
  | custom accepts => exact absurd h (by simp [Acceptance.isOrdinary])

/-- What a node with a custom rule accepts. -/
theorem accepts_of_custom {t : Ty} {rule : View → View → Bool} (h : t.acceptance = .custom rule)
    (given : Ty) : t.accepts given = rule t.view given.view := by
  obtain ⟨kind, name, params, traits, acceptance⟩ := t
  obtain rfl : acceptance = .custom rule := h
  rw [accepts, view]
  rfl

/-! ## Equivalent types -/

theorem isEquivalent_iff {a b : Ty} : a.isEquivalent b = true ↔
    a.kind = b.kind ∧ (a.kind = .typeParam ∨ a.name = b.name) ∧
      agreeAll false a.params b.params = true := by
  unfold isEquivalent
  rw [agrees_eq]
  simp [and_assoc]

theorem agreeAll_comm : ∀ {as bs : List Ty},
    (∀ a ∈ as, ∀ b : Ty, a.isEquivalent b = true → b.isEquivalent a = true) →
    agreeAll false as bs = true → agreeAll false bs as = true
  | [], [], _, _ => rfl
  | [], _ :: _, _, h => absurd h (by simp [agreeAll])
  | _ :: _, [], _, h => absurd h (by simp [agreeAll])
  | a :: as, b :: bs, ih, h => by
    rw [agreeAll, Bool.and_eq_true] at h ⊢
    exact ⟨ih a List.mem_cons_self b h.1,
      agreeAll_comm (fun c hc => ih c (List.mem_cons_of_mem a hc)) h.2⟩

theorem isEquivalent_symm {a b : Ty} (h : a.isEquivalent b = true) : b.isEquivalent a = true := by
  induction a using Ty.induct generalizing b with
  | node a ih =>
    rw [isEquivalent_iff] at h ⊢
    obtain ⟨hkind, hname, hparams⟩ := h
    refine ⟨hkind.symm, ?_, agreeAll_comm (fun c hc d hd => ih c hc hd) hparams⟩
    rw [← hkind]
    exact hname.imp_right Eq.symm

theorem agreeAll_symm {as bs : List Ty} (h : agreeAll false as bs = true) :
    agreeAll false bs as = true :=
  agreeAll_comm (fun _ _ _ => isEquivalent_symm) h

theorem agreeAll_step : ∀ {as bs cs : List Ty},
    (∀ a ∈ as, ∀ b c : Ty, a.isEquivalent b = true → b.isEquivalent c = true →
      a.isEquivalent c = true) →
    agreeAll false as bs = true → agreeAll false bs cs = true → agreeAll false as cs = true
  | [], [], _, _, _, h => h
  | [], _ :: _, _, _, h, _ => absurd h (by simp [agreeAll])
  | _ :: _, [], _, _, h, _ => absurd h (by simp [agreeAll])
  | _ :: _, _ :: _, [], _, _, h => absurd h (by simp [agreeAll])
  | a :: as, b :: bs, c :: cs, ih, hab, hbc => by
    rw [agreeAll, Bool.and_eq_true] at hab hbc ⊢
    exact ⟨ih a List.mem_cons_self b c hab.1 hbc.1,
      agreeAll_step (fun d hd => ih d (List.mem_cons_of_mem a hd)) hab.2 hbc.2⟩

theorem isEquivalent_trans {a b c : Ty} (hab : a.isEquivalent b = true)
    (hbc : b.isEquivalent c = true) : a.isEquivalent c = true := by
  induction a using Ty.induct generalizing b c with
  | node a ih =>
    rw [isEquivalent_iff] at hab hbc ⊢
    obtain ⟨hkind, hname, hparams⟩ := hab
    obtain ⟨hkind', hname', hparams'⟩ := hbc
    refine ⟨hkind.trans hkind', ?_, agreeAll_step (fun d hd _ _ => ih d hd) hparams hparams'⟩
    rcases hname with hpar | hname
    · exact Or.inl hpar
    · rw [hkind, hname]
      exact hname'

theorem agreeAll_trans {as bs cs : List Ty} (hab : agreeAll false as bs = true)
    (hbc : agreeAll false bs cs = true) : agreeAll false as cs = true :=
  agreeAll_step (fun _ _ _ _ => isEquivalent_trans) hab hbc

theorem acceptAll_congr : ∀ {ts as bs : List Ty},
    (∀ t ∈ ts, ∀ a b : Ty, a.isEquivalent b = true → t.accepts a = t.accepts b) →
    agreeAll false as bs = true → acceptAll ts as = acceptAll ts bs
  | _, [], [], _, _ => rfl
  | _, [], _ :: _, _, h => absurd h (by simp [agreeAll])
  | _, _ :: _, [], _, h => absurd h (by simp [agreeAll])
  | [], _ :: _, _ :: _, _, _ => rfl
  | t :: ts, a :: as, b :: bs, ih, h => by
    rw [agreeAll, Bool.and_eq_true] at h
    rw [acceptAll, acceptAll, ih t List.mem_cons_self a b h.1,
      acceptAll_congr (fun u hu => ih u (List.mem_cons_of_mem t hu)) h.2]

/-- **Equivalent types are accepted alike.** -/
theorem Ordinary.accepts_congr {t a b : Ty} (ht : t.Ordinary) (hab : a.isEquivalent b = true) :
    t.accepts a = t.accepts b := by
  induction t using Ty.induct generalizing a b with
  | node t ih =>
    obtain ⟨hkind, hname, hparams⟩ := isEquivalent_iff.mp hab
    have hall : acceptAll t.params a.params = acceptAll t.params b.params :=
      acceptAll_congr (fun c hc _ _ h => ih c hc (ht.of_mem_params hc) h) hparams
    rw [accepts_eq (ordinary_iff.mp ht).1, accepts_eq (ordinary_iff.mp ht).1, hkind, hall]
    rcases hname with hpar | hname
    · -- a type parameter is accepted by nothing but dynamic types, whatever it is called
      cases hdyn : t.kind.isDyn with
      | true => simp
      | false =>
        have hne : t.kind ≠ b.kind := by
          rw [← hkind, hpar]
          intro hk
          exact absurd hdyn (by simp [hk, Kind.isDyn])
        simp [beq_false_of_ne hne]
    · rw [hname]

/-! ## Exceptions for `null` -/

mutual

/-- Whether the second type makes an exception for `null` at every node where the first does. -/
def nullsWithin : Ty → Ty → Bool
  | ⟨_, _, params, _, acceptance⟩, other =>
    (!acceptance.takesNull || other.acceptance.takesNull) && allNullsWithin params other.params

/-- `nullsWithin` on two lists, pairwise. -/
def allNullsWithin : List Ty → List Ty → Bool
  | a :: as, b :: bs => a.nullsWithin b && allNullsWithin as bs
  | _, _ => true

end

theorem nullsWithin_iff {a b : Ty} : a.nullsWithin b = true ↔
    (a.acceptance.takesNull = true → b.acceptance.takesNull = true) ∧
      allNullsWithin a.params b.params = true := by
  obtain ⟨kind, name, params, traits, acceptance⟩ := a
  rw [nullsWithin]
  cases acceptance.takesNull <;> simp

theorem acceptAll_mono : ∀ {as bs given : List Ty},
    (∀ a ∈ as, ∀ b ∈ bs, a.isEquivalent b = true → a.nullsWithin b = true →
      ∀ g : Ty, a.accepts g = true → b.accepts g = true) →
    agreeAll false as bs = true → allNullsWithin as bs = true →
    acceptAll as given = true → acceptAll bs given = true
  | [], [], _, _, _, _, h => h
  | [], _ :: _, _, _, h, _, _ => absurd h (by simp [agreeAll])
  | _ :: _, [], _, _, h, _, _ => absurd h (by simp [agreeAll])
  | _ :: _, _ :: _, [], _, _, _, h => absurd h (by simp [acceptAll])
  | a :: as, b :: bs, g :: given, ih, hagree, hnulls, h => by
    rw [agreeAll, Bool.and_eq_true] at hagree
    rw [allNullsWithin, Bool.and_eq_true] at hnulls
    rw [acceptAll, Bool.and_eq_true] at h ⊢
    refine ⟨ih a List.mem_cons_self b List.mem_cons_self hagree.1 hnulls.1 g h.1, ?_⟩
    exact acceptAll_mono (fun c hc d hd => ih c (List.mem_cons_of_mem a hc) d
      (List.mem_cons_of_mem b hd)) hagree.2 hnulls.2 h.2

/-- **Fewer exceptions for `null` accept less.** -/
theorem Ordinary.accepts_mono {a b given : Ty} (ha : a.Ordinary) (hb : b.Ordinary)
    (hab : a.isEquivalent b = true) (hnulls : a.nullsWithin b = true)
    (h : a.accepts given = true) : b.accepts given = true := by
  induction a using Ty.induct generalizing b given with
  | node a ih =>
    obtain ⟨hkind, hname, hparams⟩ := isEquivalent_iff.mp hab
    obtain ⟨hroot, hrest⟩ := nullsWithin_iff.mp hnulls
    have hall : acceptAll a.params given.params = true → acceptAll b.params given.params = true :=
      acceptAll_mono (fun c hc d hd hcd hn g hg => ih c hc (ha.of_mem_params hc)
        (hb.of_mem_params hd) hcd hn hg) hparams hrest
    rw [accepts_eq (ordinary_iff.mp ha).1] at h
    rw [accepts_eq (ordinary_iff.mp hb).1, ← hkind]
    simp only [Bool.or_eq_true, Bool.and_eq_true, beq_iff_eq] at h ⊢
    rcases h with (⟨htakes, hnull⟩ | hdyn) | ⟨⟨hk, hn⟩, hps⟩
    · exact Or.inl (Or.inl ⟨hroot htakes, hnull⟩)
    · exact Or.inl (Or.inr hdyn)
    · rcases hname with hpar | hname
      · exact Or.inl (Or.inr (by rw [hpar]; rfl))
      · exact Or.inr ⟨⟨hk, hname ▸ hn⟩, hall hps⟩

/-! ## No exceptions -/

mutual

/-- The type with the structural rule of acceptance at every node. -/
def strict : Ty → Ty
  | ⟨kind, name, params, traits, _⟩ => ⟨kind, name, strictAll params, traits, .structural⟩

/-- `strict` on every type of a list. -/
def strictAll : List Ty → List Ty
  | [] => []
  | t :: rest => t.strict :: strictAll rest

end

theorem strictAll_eq_map (ts : List Ty) : strictAll ts = ts.map strict := by
  induction ts with
  | nil => rfl
  | cons t rest ih => rw [strictAll, List.map_cons, ih]

theorem strict_eq (t : Ty) :
    t.strict = ⟨t.kind, t.name, t.params.map strict, t.traits, .structural⟩ := by
  cases t
  rw [strict, strictAll_eq_map]

theorem ordinary_strict (t : Ty) : t.strict.Ordinary := by
  induction t using Ty.induct with
  | node t ih =>
    rw [strict_eq, ordinary_iff]
    exact ⟨rfl, List.forall_mem_map.mpr ih⟩

theorem agreeAll_strict {ts : List Ty} (h : ∀ t ∈ ts, t.strict.isEquivalent t = true) :
    agreeAll false (ts.map strict) ts = true := by
  induction ts with
  | nil => rfl
  | cons t rest ih =>
    obtain ⟨ht, hrest⟩ := List.forall_mem_cons.mp h
    rw [List.map_cons, agreeAll, Bool.and_eq_true]
    exact ⟨ht, ih hrest⟩

theorem isEquivalent_strict (t : Ty) : t.strict.isEquivalent t = true := by
  induction t using Ty.induct with
  | node t ih =>
    rw [strict_eq, isEquivalent_iff]
    exact ⟨rfl, Or.inr rfl, agreeAll_strict ih⟩

theorem isEquivalent_refl (t : Ty) : t.isEquivalent t = true :=
  isEquivalent_trans (isEquivalent_symm t.isEquivalent_strict) t.isEquivalent_strict

theorem agreeAll_refl (ts : List Ty) : agreeAll false ts ts = true := by
  have hstrict : agreeAll false (ts.map strict) ts = true :=
    agreeAll_strict fun t _ => t.isEquivalent_strict
  exact agreeAll_trans (agreeAll_symm hstrict) hstrict

theorem allNullsWithin_strict : ∀ {ts others : List Ty},
    (∀ t ∈ ts, ∀ other : Ty, t.strict.nullsWithin other = true) →
    allNullsWithin (ts.map strict) others = true
  | [], _, _ => by rw [List.map_nil, allNullsWithin]; simp
  | _ :: _, [], _ => by rw [List.map_cons, allNullsWithin]; simp
  | t :: ts, other :: others, h => by
    rw [List.map_cons, allNullsWithin, h t List.mem_cons_self,
      allNullsWithin_strict fun u hu => h u (List.mem_cons_of_mem t hu), Bool.and_self]

theorem nullsWithin_strict (t other : Ty) : t.strict.nullsWithin other = true := by
  induction t using Ty.induct generalizing other with
  | node t ih =>
    rw [strict_eq, nullsWithin_iff]
    exact ⟨fun h => absurd h (by simp [Acceptance.takesNull]),
      allNullsWithin_strict fun c hc other => ih c hc other⟩

end Ty
end CelTyping
